import Glm53Serve.Dflash.Selector

/-!
# Drafting along the edges of the candidates

`_generate_draft` of `overlay/dflash2_speculator.py` takes the hidden states of a batch, picks the
candidates of every step (`compute_candidates` of `overlay/qwen3_dflash2.py`), scores the edges from
the candidates of a step to those of the next (`_score_edges`) and lets the walk choose by index.

## The model

A tensor is a function of its indices, arithmetic is exact, and minus infinity is below every
score. The model that leads to the hidden states, the logits of a hidden state and its projection
are parameters; so is `torch.topk`, which takes whichever it likes of equal logits.

Over it stands what a draft is for: a walk over tokens that knows one request and nothing else.

## What is proved

* `argmax_of_bot`, `le_argmax` — the lanes beyond the candidates do not count.
* `prevToken_eq` — the index that the walk keeps stands for the token of the walk over tokens.
* `Reachable.clean` — whatever the mode, outside the cached candidates there is minus infinity.
* `generateDraft_path` — the drafted tokens and the logits that are handed over.
* `generateDraft_alone` — a request is drafted the same in whatever batch.
-/

namespace Glm53Serve.Dflash

variable {H R τ : Type*}

/-! ### The model of the drafter -/

/-- `torch.topk(logits, top_k, dim=-1)` of a row: the indices that it returns. -/
structure TopK (R : Type*) [LinearOrder R] (vocabSize topK : ℕ) where
  indices : (ℕ → R) → ℕ → ℕ
  lt : ∀ f, ∀ j < topK, indices f j < vocabSize
  inj : ∀ f, Set.InjOn (indices f) {j | j < topK}
  sorted : ∀ f : ℕ → R, ∀ j < topK, ∀ i ≤ j, f (indices f j) ≤ f (indices f i)
  rest : ∀ f : ℕ → R, ∀ token < vocabSize, (∀ j < topK, indices f j ≠ token) →
    ∀ j < topK, f token ≤ f (indices f j)

/-- What a draft needs of `DFlash2Qwen3ForCausalLM`. -/
structure DraftModel (H R : Type*) [LinearOrder R] (topK : ℕ) where
  vocabSize : ℕ
  selectorRank : ℕ
  /-- `candidate_logits_processor(lm_head, hidden_states)` of a row. -/
  logits : H → ℕ → R
  topk : TopK R vocabSize topK
  /-- `hidden_projection` of a row. -/
  hiddenProjection : H → ℕ → R
  predecessorCodebook : ℕ → ℕ → R
  successorCodebook : ℕ → ℕ → R

/-- What a call of `_generate_draft` reads. -/
structure DraftInput (H τ : Type*) where
  numReqs : ℕ
  /-- `_run_model(...)`, by row of the buffer. -/
  lastHiddenStates : ℕ → H
  sampleIndices : ℕ → ℕ
  /-- `input_buffers.input_ids`. -/
  inputIds : ℕ → ℕ
  numQueryPerReq : ℕ
  samplePos : ℕ → ℤ
  sampleIdxMapping : ℕ → ℤ
  temperature : ℕ → τ
  seeds : ℕ → ℤ

/-- `torch.cat((x, y), dim=1)` of a row, with `n` entries in `x`. -/
def catRows {β : Type*} (n : ℕ) (x y : ℕ → β) : ℕ → β := fun l => if l < n then x l else y (l - n)

section
variable [CommSemiring R]

/-- `_score_edges`, of the tables, the candidates, their unary logits, the hidden states and the
anchors, by row, step, predecessor and candidate. -/
def scoreEdges (rank : ℕ) (predecessorTable successorTable : ℕ → ℕ → R)
    (candidateIds : ℕ → ℕ → ℕ → ℕ)
    (unaryLogits hidden : ℕ → ℕ → ℕ → R) (anchorTokenIds : ℕ → ℕ) : ℕ → ℕ → ℕ → ℕ → R :=
  let successors := fun b l c => successorTable (candidateIds b l c)
  let predecessorIds := fun b => catRows 1 (fun _ _ => anchorTokenIds b) (candidateIds b)
  let predecessors := fun b l p => predecessorTable (predecessorIds b l p)
  fun b l p c => unaryLogits b l c +
    ∑ r ∈ Finset.range rank, predecessors b l p r * hidden b l r * successors b l c r

variable [LinearOrder R] {topK : ℕ}

/-- `compute_candidates(hidden_states)` of a row: the ids. -/
def DraftModel.candidateIds (m : DraftModel H R topK) (h : H) : ℕ → ℕ := m.topk.indices (m.logits h)

/-- `compute_candidates(hidden_states)` of a row: the logits. -/
def DraftModel.unaryLogits (m : DraftModel H R topK) (h : H) : ℕ → R :=
  fun j => m.logits h (m.candidateIds h j)

variable (cfg : Config (WithBot R) τ)

/-- `last_hidden_states[self.sample_indices[:num_sample]]`, by row and step. -/
def DraftInput.hiddenStates (d : DraftInput H τ) (row step : ℕ) : H :=
  d.lastHiddenStates (d.sampleIndices (row * cfg.numSteps + step))

/-- `input_ids[self._anchor_indices[:num_reqs]]`. -/
def DraftInput.anchorTokenIds (d : DraftInput H τ) (row : ℕ) : ℕ :=
  d.inputIds (row * d.numQueryPerReq)

/-- The candidates and scores that `_generate_draft` hands to the walk. -/
def DraftInput.batch (m : DraftModel H R cfg.topK) (d : DraftInput H τ) : Batch (WithBot R) τ where
  numReqs := d.numReqs
  candidateIds row step := m.candidateIds (d.hiddenStates cfg row step)
  scores row step p c :=
    ((scoreEdges m.selectorRank m.predecessorCodebook m.successorCodebook
      (fun row step => m.candidateIds (d.hiddenStates cfg row step))
      (fun row step => m.unaryLogits (d.hiddenStates cfg row step))
      (fun row step => m.hiddenProjection (d.hiddenStates cfg row step)) d.anchorTokenIds row
        step p c : R) :
      WithBot R)
  samplePos := d.samplePos
  sampleIdxMapping := d.sampleIdxMapping
  temperature := d.temperature
  seeds := d.seeds

/-- The assumptions on a call: its entries have the request state of their row, and the requests
have states of their own. -/
structure DraftInput.Ok (d : DraftInput H τ) : Prop where
  sameState : ∀ row < d.numReqs, ∀ step < cfg.numSteps,
    d.sampleIdxMapping (row * cfg.numSteps + step) = d.sampleIdxMapping (row * cfg.numSteps)
  ownState : ∀ row < d.numReqs, ∀ row' < d.numReqs, 0 ≤ d.sampleIdxMapping (row * cfg.numSteps) →
    d.sampleIdxMapping (row * cfg.numSteps) = d.sampleIdxMapping (row' * cfg.numSteps) → row = row'

/-- `_generate_draft(num_reqs, ...)`. -/
def GenerateDraft [Zero τ] [DecidableEq τ] (m : DraftModel H R cfg.topK) (d : DraftInput H τ)
    (s s' : Speculator (WithBot R)) : Prop :=
  ∃ t, SamplePath cfg (d.batch cfg m) s t ∧
    if cfg.probabilistic then CacheDraftLogits cfg (d.batch cfg m) t s' else s' = t

/-- The speculators that sequences of calls lead to. -/
inductive Reachable [Zero τ] [DecidableEq τ] (m : DraftModel H R cfg.topK) :
    Speculator (WithBot R) → Prop where
  /-- `__init__`. -/
  | init (rows : ℕ → Row (WithBot R)) : Reachable m ⟨rows, fun _ => ⟨fun _ => ⊥, fun _ => 0⟩⟩
  /-- A call. -/
  | call {s s' : Speculator (WithBot R)} {d : DraftInput H τ} : Reachable m s → d.Ok cfg →
      GenerateDraft cfg m d s s' → Reachable m s'

end

/-! ### The walk over tokens -/

/-- What the draft of one request depends on. -/
structure Request (H τ : Type*) where
  /-- The token that the draft goes on from. -/
  anchor : ℕ
  /-- By step. -/
  hidden : ℕ → H
  /-- By step. -/
  pos : ℕ → ℤ
  temperature : τ
  seed : ℤ

section
variable [CommSemiring R] [LinearOrder R] (cfg : Config (WithBot R) τ)

/-- The score of going from a token to another one. -/
def DraftModel.edge {topK : ℕ} (m : DraftModel H R topK) (h : H) (previous token : ℕ) : R :=
  m.logits h token + ∑ r ∈ Finset.range m.selectorRank,
    m.predecessorCodebook previous r * m.hiddenProjection h r * m.successorCodebook token r

variable [Zero τ] [DecidableEq τ]

/-- What the choice of a token goes by. -/
def Request.rated (q : Request H τ) (step token : ℕ) (score : WithBot R) : WithBot R :=
  if cfg.probabilistic ∧ q.temperature ≠ 0 then
    cfg.noised q.seed (q.pos step) token q.temperature score else score

/-- The token that follows one. -/
def Request.next (m : DraftModel H R cfg.topK) (q : Request H τ) (step previous : ℕ) : ℕ :=
  let ids := m.candidateIds (q.hidden step)
  ids (argmax cfg.topK fun j => q.rated cfg step (ids j) (m.edge (q.hidden step) previous (ids j)))

/-- The tokens of the walk, the anchor first. -/
def Request.path (m : DraftModel H R cfg.topK) (q : Request H τ) : ℕ → ℕ
  | 0 => q.anchor
  | step + 1 => q.next cfg m step (q.path m step)

/-- The request of a row. -/
def DraftInput.request (d : DraftInput H τ) (row : ℕ) : Request H τ where
  anchor := d.anchorTokenIds row
  hidden := d.hiddenStates cfg row
  pos step := d.samplePos (row * cfg.numSteps + step) - 1
  temperature := d.temperature (d.sampleIdxMapping (row * cfg.numSteps)).toNat
  seed := d.seeds (d.sampleIdxMapping (row * cfg.numSteps)).toNat

end

/-! ### The index of a maximum -/

section
variable {α : Type*} [LinearOrder α]

theorem argmax_succ (n : ℕ) (f : ℕ → α) :
    argmax (n + 1) f = if f (argmax n f) < f n then n else argmax n f := by
  rw [argmax, List.range_succ, List.foldl_append]
  rfl

/-- No lane is above the chosen one. -/
theorem le_argmax {n j : ℕ} {f : ℕ → α} (h : j < n) : f j ≤ f (argmax n f) := by
  induction n with
  | zero => omega
  | succ n ih =>
    rw [argmax_succ]
    rcases Nat.lt_succ_iff_lt_or_eq.mp h with hlt | rfl
    · split_ifs with hlast
      · exact (ih hlt).trans hlast.le
      · exact ih hlt
    · split_ifs with hlast
      · exact le_rfl
      · exact not_lt.mp hlast

/-- The lanes of minus infinity do not count. -/
theorem argmax_of_bot [OrderBot α] {n k : ℕ} {f : ℕ → α} (h : ∀ j, k ≤ j → f j = ⊥) (hk : k ≤ n) :
    argmax n f = argmax k f := by
  induction n, hk using Nat.le_induction with
  | base => rfl
  | succ n hkn ih => rw [argmax_succ, h n hkn, if_neg not_lt_bot, ih]

theorem argmax_congr {n : ℕ} {f g : ℕ → α} (hn : 0 < n) (h : ∀ j < n, f j = g j) :
    argmax n f = argmax n g := by
  have hboth : ∀ k ≤ n, argmax k f = argmax k g ∧ argmax k f < n := by
    intro k hk
    induction k with
    | zero => exact ⟨rfl, hn⟩
    | succ k ih =>
      obtain ⟨heq, hlt⟩ := ih (by omega)
      rw [argmax_succ, argmax_succ, ← heq, h _ hlt, h k (by omega)]
      exact ⟨rfl, by split_ifs <;> omega⟩
  exact (hboth n le_rfl).1

end

/-! ### The walk by index -/

section
variable [CommSemiring R] [LinearOrder R] {cfg : Config (WithBot R) τ}
variable {m : DraftModel H R cfg.topK} {d : DraftInput H τ}

theorem batch_ok (hd : d.Ok cfg) : (d.batch cfg m).Ok cfg :=
  ⟨hd.sameState, hd.ownState, fun _ _ _ _ => m.topk.inj _⟩

variable [Zero τ] [DecidableEq τ]

/-- The token that the index at a step stands for. -/
def DraftInput.prevToken (m : DraftModel H R cfg.topK) (d : DraftInput H τ) (row step : ℕ) : ℕ :=
  catRows 1 (fun _ => d.anchorTokenIds row)
    (fun l => m.candidateIds (d.hiddenStates cfg row l)
      (previous cfg (d.batch cfg m) row step)) step

/-- The scores that the walk loads are those of the edges from that token. -/
theorem scores_eq_edge (row step j : ℕ) :
    (d.batch cfg m).scores row step (previous cfg (d.batch cfg m) row step) j =
      (m.edge (d.hiddenStates cfg row step) (d.prevToken m row step)
        (m.candidateIds (d.hiddenStates cfg row step) j) : WithBot R) := by
  have hid : catRows 1 (fun _ _ => d.anchorTokenIds row)
    (fun l => m.candidateIds (d.hiddenStates cfg row l)) step
      (previous cfg (d.batch cfg m) row step) = d.prevToken m row step := by
    unfold catRows DraftInput.prevToken catRows
    split_ifs <;> rfl
  rw [← hid]
  rfl

/-- The index that the walk chooses at an entry. -/
theorem chooseIndex_eq {row : ℕ} (hvalid : 0 ≤ d.sampleIdxMapping (row * cfg.numSteps)) (step : ℕ) :
    chooseIndex cfg (d.batch cfg m) row (previous cfg (d.batch cfg m) row step) step =
      argmax cfg.topK fun j => (d.request cfg row).rated cfg step
        (m.candidateIds (d.hiddenStates cfg row step) j)
        (m.edge (d.hiddenStates cfg row step) (d.prevToken m row step)
          (m.candidateIds (d.hiddenStates cfg row step) j)) := by
  have hstate : 0 ≤ (d.batch cfg m).sampleIdxMapping (row * cfg.numSteps) := hvalid
  simp only [chooseIndex, gumbelNoisedArgmax, decide_eq_true hstate, Bool.and_true, if_true]
  rw [argmax_of_bot (k := cfg.topK) (fun j hj => by simp [Nat.not_lt.mpr hj]) (topK_le_blockK cfg)]
  refine argmax_congr cfg.topK_pos fun j hj => ?_
  rw [decide_eq_true hj, if_pos rfl, if_pos rfl, if_pos rfl, scores_eq_edge, Request.rated]
  cases cfg.probabilistic with
  | false => simp
  | true =>
    simp only [if_true, true_and]
    rfl

/-- The index that the walk keeps stands for the token of the walk over tokens. -/
theorem prevToken_eq {row : ℕ} (hvalid : 0 ≤ d.sampleIdxMapping (row * cfg.numSteps)) (step : ℕ) :
    d.prevToken m row step = (d.request cfg row).path cfg m step := by
  induction step with
  | zero => rfl
  | succ step ih =>
    rw [Request.path, ← ih, Request.next]
    change m.candidateIds (d.hiddenStates cfg row step)
      (chooseIndex cfg (d.batch cfg m) row (previous cfg (d.batch cfg m) row step) step) = _
    rw [chooseIndex_eq hvalid]
    rfl

/-- The candidate that the walk chooses is the next token. -/
theorem chosen_eq_path {row : ℕ} (hvalid : 0 ≤ d.sampleIdxMapping (row * cfg.numSteps)) (step : ℕ) :
    m.candidateIds (d.hiddenStates cfg row step) (previous cfg (d.batch cfg m) row (step + 1)) =
      (d.request cfg row).path cfg m (step + 1) :=
  (prevToken_eq hvalid (step + 1) ▸ rfl : d.prevToken m row (step + 1) = _)

/-- Without noise the chosen token is one of the best. -/
theorem path_greedy (q : Request H τ) (hcold : cfg.probabilistic = true → q.temperature = 0)
    (step : ℕ) {j : ℕ}
    (hj : j < cfg.topK) :
    m.edge (q.hidden step) (q.path cfg m step) (m.candidateIds (q.hidden step) j) ≤
      m.edge (q.hidden step) (q.path cfg m step) (q.path cfg m (step + 1)) := by
  have hrated : ∀ token score, q.rated cfg step token score = score := fun token score => by
    rw [Request.rated, if_neg fun h => h.2 (hcold h.1)]
  have hbest := le_argmax (f := fun j => q.rated cfg step (m.candidateIds (q.hidden step) j)
    (m.edge (q.hidden step) (q.path cfg m step) (m.candidateIds (q.hidden step) j))) hj
  simp only [hrated, WithBot.coe_le_coe] at hbest
  rw [Request.path, Request.next]
  simpa only [hrated] using hbest

/-! ### Sequences of calls -/

theorem clean_generateDraft {s s' : Speculator (WithBot R)} (hd : d.Ok cfg)
    (h : GenerateDraft cfg m d s s')
    (hclean : ∀ k, (s.slots k).Clean cfg) (k : ℕ × ℕ) : (s'.slots k).Clean cfg := by
  obtain ⟨t, hwalk, hcache⟩ := h
  split_ifs at hcache with hmode
  · exact clean_drafted (batch_ok hd) ⟨t, hwalk, hcache⟩ hclean k
  · rw [hcache, hwalk.2]
    exact hclean k

/-- Whatever the mode, outside the cached candidates there is minus infinity. -/
theorem Reachable.clean {s : Speculator (WithBot R)} (h : Reachable cfg m s) (k : ℕ × ℕ) :
    (s.slots k).Clean cfg := by
  induction h generalizing k with
  | init rows => exact fun _ _ => rfl
  | call _ hd h ih => exact clean_generateDraft hd h ih k

/-- What a call leaves of the rows: it is what the walk leaves. -/
theorem draftTokens_eq {s s' : Speculator (WithBot R)} (h : GenerateDraft cfg m d s s')
    {row step : ℕ}
    (he : (d.batch cfg m).Entry cfg row step) :
    (s'.rows row).draftTokens step = (d.request cfg row).path cfg m (step + 1) := by
  obtain ⟨t, hwalk, hcache⟩ := h
  have hrows : s'.rows = t.rows := by
    split_ifs at hcache with hmode
    · exact hcache.2
    · rw [hcache]
  rw [hrows, (samplePath_entry hwalk he).2]
  exact chosen_eq_path he.2.2 step

/-- What a call hands over of a request: the logits of an entry, by token. -/
def Request.draftLogits (m : DraftModel H R cfg.topK) (q : Request H τ) (step token : ℕ) :
    WithBot R :=
  open Classical in
  if ∃ j < cfg.topK, m.candidateIds (q.hidden step) j = token then
    m.edge (q.hidden step) (q.path cfg m step) token
  else ⊥

theorem draftLogits_eq {s s' : Speculator (WithBot R)} (hs : Reachable cfg m s) (hd : d.Ok cfg)
    (h : GenerateDraft cfg m d s s') (hmode : cfg.probabilistic = true) {row step : ℕ}
    (he : (d.batch cfg m).Entry cfg row step) (token : ℕ) :
    (s'.slots ((d.batch cfg m).state cfg row, step)).draftLogits token =
      (d.request cfg row).draftLogits m step token := by
  obtain ⟨t, hwalk, hcache⟩ := h
  rw [if_pos hmode] at hcache
  have hslot := alone_cache (hs.clean ((d.batch cfg m).state cfg row, step))
    ((t.rows row).selectorScores step)
    ((batch_ok (m := m) hd).distinct row he.1 step he.2.1)
  rw [cacheDraftLogits_entry (batch_ok hd) hcache he, hwalk.2, Request.draftLogits]
  split_ifs with hcandidate
  · obtain ⟨j, hj, rfl⟩ := hcandidate
    refine (hslot.1 j hj).trans ?_
    rw [(samplePath_entry hwalk he).1 j hj, scores_eq_edge, prevToken_eq he.2.2]
    rfl
  · push Not at hcandidate
    exact hslot.2.1 token hcandidate

/-- What a call drafts for the requests of its batch. -/
structure DraftsPaths (cfg : Config (WithBot R) τ) (m : DraftModel H R cfg.topK)
    (d : DraftInput H τ)
    (s s' : Speculator (WithBot R)) : Prop where
  /-- The drafted tokens are those of the walk over tokens. -/
  token : ∀ row step, (d.batch cfg m).Entry cfg row step →
    (s'.rows row).draftTokens step = (d.request cfg row).path cfg m (step + 1)
  /-- The logits are those of the edges from the token before, for the candidates alone. -/
  logits : cfg.probabilistic = true → ∀ row step, (d.batch cfg m).Entry cfg row step → ∀ token,
    (s'.slots ((d.batch cfg m).state cfg row, step)).draftLogits token =
      (d.request cfg row).draftLogits m step token
  /-- A candidate that is not drafted is no better, where there is no noise. -/
  greedy : ∀ row step, (d.batch cfg m).Entry cfg row step →
    (cfg.probabilistic = true → (d.request cfg row).temperature = 0) → ∀ j < cfg.topK,
    m.edge (d.hiddenStates cfg row step) ((d.request cfg row).path cfg m step)
        (m.candidateIds (d.hiddenStates cfg row step) j) ≤
      m.edge (d.hiddenStates cfg row step) ((d.request cfg row).path cfg m step)
        ((s'.rows row).draftTokens step)
  /-- The drafted tokens are of the vocabulary. -/
  inVocab : ∀ row step, (d.batch cfg m).Entry cfg row step →
    (s'.rows row).draftTokens step < m.vocabSize
  /-- Without a distribution to hand over, none is touched. -/
  untouched : cfg.probabilistic = false → s'.slots = s.slots

/-- **The draft**: after any sequence of calls, a call drafts for each of its requests the walk over
tokens of this request, and hands over the scores along it. -/
theorem generateDraft_path {s s' : Speculator (WithBot R)} (hs : Reachable cfg m s) (hd : d.Ok cfg)
    (h : GenerateDraft cfg m d s s') : DraftsPaths cfg m d s s' := by
  refine ⟨fun row step he => draftTokens_eq h he, fun hmode row step he =>
    draftLogits_eq hs hd h hmode he,
    fun row step he hcold j hj => ?_, fun row step he => ?_, fun hmode => ?_⟩
  · rw [draftTokens_eq h he]
    exact path_greedy (d.request cfg row) hcold step hj
  · rw [draftTokens_eq h he, ← chosen_eq_path he.2.2]
    exact m.topk.lt _ _ (chooseIndex_lt _ row _ step)
  · obtain ⟨t, hwalk, hcache⟩ := h
    rw [if_neg (by simp [hmode])] at hcache
    rw [hcache, hwalk.2]

/-! ### A request alone -/

/-- The requests are the same for the first `n` steps. -/
structure Request.Agrees (n : ℕ) (q q' : Request H τ) : Prop where
  anchor : q.anchor = q'.anchor
  hidden : ∀ step < n, q.hidden step = q'.hidden step
  pos : ∀ step < n, q.pos step = q'.pos step
  temperature : q.temperature = q'.temperature
  seed : q.seed = q'.seed

theorem path_congr {n : ℕ} {q q' : Request H τ} (h : q.Agrees n q') {step : ℕ} (hstep : step ≤ n) :
    q.path cfg m step = q'.path cfg m step := by
  induction step with
  | zero => exact h.anchor
  | succ step ih =>
    rw [Request.path, Request.path, ih (by omega), Request.next, Request.next, h.hidden step hstep]
    simp only [Request.rated, h.temperature, h.seed, h.pos step hstep]

theorem draftLogits_congr {n : ℕ} {q q' : Request H τ} (h : q.Agrees n q') {step : ℕ}
    (hstep : step < n)
    (token : ℕ) : q.draftLogits m step token = q'.draftLogits m step token := by
  rw [Request.draftLogits, Request.draftLogits, h.hidden step hstep, path_congr h hstep.le]

/-- Whatever the batches and the calls before, two calls that the same request is
in draft the same tokens for it and hand over the same logits. -/
theorem generateDraft_alone {s₁ s₁' s₂ s₂' : Speculator (WithBot R)} {d₁ d₂ : DraftInput H τ}
    (hs₁ : Reachable cfg m s₁) (hs₂ : Reachable cfg m s₂) (hd₁ : d₁.Ok cfg) (hd₂ : d₂.Ok cfg)
    (h₁ : GenerateDraft cfg m d₁ s₁ s₁') (h₂ : GenerateDraft cfg m d₂ s₂ s₂') {row₁ row₂ step : ℕ}
    (he₁ : (d₁.batch cfg m).Entry cfg row₁ step) (he₂ : (d₂.batch cfg m).Entry cfg row₂ step)
    (hsame : (d₁.request cfg row₁).Agrees cfg.numSteps (d₂.request cfg row₂)) :
    (s₁'.rows row₁).draftTokens step = (s₂'.rows row₂).draftTokens step ∧
      (cfg.probabilistic = true → ∀ token,
        (s₁'.slots ((d₁.batch cfg m).state cfg row₁, step)).draftLogits token =
          (s₂'.slots ((d₂.batch cfg m).state cfg row₂, step)).draftLogits token) := by
  refine ⟨?_, fun hmode token => ?_⟩
  · rw [draftTokens_eq h₁ he₁, draftTokens_eq h₂ he₂, path_congr hsame he₁.2.1]
  · rw [draftLogits_eq hs₁ hd₁ h₁ hmode he₁, draftLogits_eq hs₂ hd₂ h₂ hmode he₂,
      draftLogits_congr hsame he₁.2.1]

/-! ### A batch of two requests -/

/-- The launches of a call can run. -/
theorem exists_generateDraft (cfg : Config (WithBot R) τ) (m : DraftModel H R cfg.topK)
    (d : DraftInput H τ)
    (s : Speculator (WithBot R)) : ∃ s', GenerateDraft cfg m d s s' := by
  obtain ⟨s', t, hwalk, hcache⟩ : ∃ s', Drafted cfg (d.batch cfg m) s s' := exists_drafted _ s
  cases hmode : cfg.probabilistic with
  | true => exact ⟨s', t, hwalk, by rwa [if_pos hmode]⟩
  | false => exact ⟨t, t, hwalk, by rw [if_neg (by simp [hmode])]⟩

end

/-- The two tokens of a vocabulary, the better one first. -/
def bothTokens : TopK ℤ 2 2 where
  indices f j := if f 0 < f 1 then 1 - j else j
  lt f j hj := by split_ifs <;> omega
  inj f i hi j hj h := by
    simp only [Set.mem_ofPred_eq] at hi hj
    dsimp only at h
    split_ifs at h <;> omega
  sorted f j hj i hi := by
    obtain rfl | rfl : j = 0 ∨ j = 1 := by omega
    · obtain rfl := Nat.le_zero.mp hi
      exact le_rfl
    · obtain rfl | rfl : i = 0 ∨ i = 1 := by omega
      · split_ifs with h
        · exact h.le
        · exact not_lt.mp h
      · exact le_rfl
  rest f token htoken hnone := by
    have h0 := hnone 0 (by decide)
    have h1 := hnone 1 (by decide)
    split_ifs at h0 h1 <;> omega

/-- Two steps over two tokens, without a distribution to hand over. -/
def twoSteps : Config (WithBot ℤ) ℕ := ⟨2, 2, false, fun _ _ _ _ x => x, Nat.two_pos⟩

/-- A model whose hidden states are numbers. -/
def numbers : DraftModel ℤ ℤ 2 where
  vocabSize := 2
  selectorRank := 1
  logits h token := -h * token
  topk := bothTokens
  hiddenProjection h _ := h
  predecessorCodebook token _ := token
  successorCodebook token _ := token

/-- A call for `n` requests. -/
def requests (n : ℕ) : DraftInput ℤ ℕ where
  numReqs := n
  lastHiddenStates i := if i = 0 then 3 else if i % 2 = 0 then 1 else -1
  sampleIndices i := i
  inputIds := fun _ => 5
  numQueryPerReq := 3
  samplePos := fun _ => 4
  sampleIdxMapping i := (i / 2 : ℕ)
  temperature := fun _ => 0
  seeds := fun _ => 0

theorem requests_ok (n : ℕ) : (requests n).Ok twoSteps := by
  constructor
  · intro row _ step hstep
    simp only [requests, twoSteps] at hstep ⊢
    omega
  · intro row _ row' _ _ heq
    simp only [requests, twoSteps] at heq
    omega

theorem requests_entry {n row step : ℕ} (hrow : row < n) (hstep : step < 2) :
    ((requests n).batch twoSteps numbers).Entry twoSteps row step :=
  ⟨hrow, hstep, Int.natCast_nonneg _⟩

/-- A speculator that has not drafted. -/
def undrafted : Speculator (WithBot ℤ) :=
  ⟨fun _ => ⟨fun _ _ => ⊥, fun _ => 0⟩, fun _ => ⟨fun _ => ⊥, fun _ => 0⟩⟩

/-- The same two steps, with a distribution to hand over; the noise lowers a token by five
times its number. -/
def noisedSteps : Config (WithBot ℤ) ℕ :=
  { twoSteps with probabilistic := true, noised := fun _ _ token _ x =>
    x + ((-5 * token : ℤ) : WithBot ℤ) }

/-- A call for `n` requests that are sampled. -/
def sampled (n : ℕ) : DraftInput ℤ ℕ := { requests n with temperature := fun _ => 1 }

/-- The second of two calls: the scores along the walk are handed over, and its first token is not
the candidate of the best score. -/
theorem generateDraft_path_sampled : ∃ s₁ s₂,
    GenerateDraft noisedSteps numbers (requests 1) undrafted s₁ ∧
    GenerateDraft noisedSteps numbers (sampled 2) s₁ s₂ ∧
    DraftsPaths noisedSteps numbers (sampled 2) s₁ s₂ ∧
    (s₂.rows 1).draftTokens 0 = 0 ∧ (s₂.slots (1, 0)).draftLogits 0 = ((0 : ℤ) : WithBot ℤ) ∧
    (s₂.slots (1, 0)).draftLogits 1 = ((4 : ℤ) : WithBot ℤ) := by
  obtain ⟨s₁, h₁⟩ := exists_generateDraft noisedSteps numbers (requests 1) undrafted
  obtain ⟨s₂, h₂⟩ := exists_generateDraft noisedSteps numbers (sampled 2) s₁
  have hok : ∀ n, (requests n).Ok noisedSteps ∧ (sampled n).Ok noisedSteps := fun n =>
    ⟨⟨(requests_ok n).sameState, (requests_ok n).ownState⟩,
      ⟨(requests_ok n).sameState, (requests_ok n).ownState⟩⟩
  have hpaths := generateDraft_path (.call (.init _) (hok 1).1 h₁) (hok 2).2 h₂
  have he : ((sampled 2).batch noisedSteps numbers).Entry noisedSteps 1 0 :=
    ⟨by decide, by decide, Int.natCast_nonneg _⟩
  have hlogits := hpaths.logits rfl 1 0 he
  refine ⟨s₁, s₂, h₁, h₂, hpaths, (hpaths.token 1 0 he).trans (by decide),
    (hlogits 0).trans (if_pos ⟨0, by decide⟩), (hlogits 1).trans ((if_pos ⟨1, by decide⟩).trans ?_)⟩
  decide

end Glm53Serve.Dflash
