import Glm53Serve.Lib.Owners
import Mathlib

/-!
# The candidate-selector walk of the drafter

`overlay/dflash2_speculator.py` chooses a path of candidates for each row of a batch
(`_selector_walk_kernel`) and then hands the distribution that it chose from to the verification
(`_cache_draft_logits_kernel`). A full row of logits is never cleared: only the candidates that
were written there the last time are.

## The model

A tensor is a function of its indices, and a launch is an interleaving of its programs in
whatever order, each with its stores in program order; a masked store is the stores of its
lanes. The logits are of a linear order whose least element is minus infinity. The sum of the
scaled logit and the Gumbel noise is a parameter (`noised`). Rows of the walk that have no
request do not store anything.

## What is proved

* `argmax_lt` — the chosen index is one of a candidate, whatever the noise.
* `Clean` — outside the cached candidates the logits are minus infinity.
* `sampled_logits` — what is handed over after any sequence of calls.
-/

namespace Glm53Serve.Dflash

/-! ### Data -/

variable (α τ : Type*)

/-- What the kernels read of the configuration. -/
structure Config where
  numSteps : ℕ
  topK : ℕ
  /-- `self.draft_logits is not None`. -/
  probabilistic : Bool
  /-- `logits / temp + gumbel_noise`, the noise of a seed, a position and a key. -/
  noised : ℤ → ℤ → ℕ → τ → α → α
  topK_pos : 0 < topK

/-- What a call reads: the candidates and scores of the model, and the tensors of the batch. -/
structure Batch where
  numReqs : ℕ
  /-- `candidate_ids[row, step, j]`. -/
  candidateIds : ℕ → ℕ → ℕ → ℕ
  /-- `scores[row, step, prev, j]`. -/
  scores : ℕ → ℕ → ℕ → ℕ → α
  samplePos : ℕ → ℤ
  /-- The request state of an entry; -1 is padding. -/
  sampleIdxMapping : ℕ → ℤ
  temperature : ℕ → τ
  seeds : ℕ → ℤ

/-- What is kept of a row of the batch: of `_selector_scores` and of `draft_tokens`. -/
structure Row where
  /-- By step and lane. -/
  selectorScores : ℕ → ℕ → α
  draftTokens : ℕ → ℕ

/-- What is kept of a request state and a step. -/
structure Slot where
  /-- By token. -/
  draftLogits : ℕ → α
  /-- By lane. -/
  cachedCandidateIds : ℕ → ℕ

/-- The tensors of the speculator. -/
structure Speculator where
  rows : ℕ → Row α
  slots : ℕ × ℕ → Slot α

variable {α τ}

/-! ### Stores -/

/-- `triton.next_power_of_2(selector_top_k)`. -/
def Config.blockK (cfg : Config α τ) : ℕ := 2 ^ Nat.clog 2 cfg.topK

/-- `tl.store(m + address, values, mask=mask)` of `n` lanes. -/
def storeLanes {β : Type*} (n : ℕ) (mask : ℕ → Bool) (m : ℕ → β) (address : ℕ → ℕ)
    (values : ℕ → β) : ℕ → β :=
  (List.range n).foldl (fun m j => if mask j then Function.update m (address j) (values j) else m) m

/-- A store of the candidates' lanes. -/
def Config.store {β : Type*} (cfg : Config α τ) (m : ℕ → β) (address : ℕ → ℕ)
    (values : ℕ → β) : ℕ → β :=
  storeLanes cfg.blockK (fun j => j < cfg.topK) m address values

section
variable {β : Type*} {n : ℕ} {mask : ℕ → Bool} {m : ℕ → β} {address : ℕ → ℕ} {values : ℕ → β}

theorem storeLanes_succ : storeLanes (n + 1) mask m address values =
    if mask n then Function.update (storeLanes n mask m address values) (address n) (values n)
    else storeLanes n mask m address values := by
  rw [storeLanes, List.range_succ, List.foldl_append]
  rfl

/-- Where no lane stores. -/
theorem storeLanes_other {x : ℕ} (h : ∀ j < n, mask j = true → address j ≠ x) :
    storeLanes n mask m address values x = m x := by
  induction n with
  | zero => rfl
  | succ n ih =>
    have ih := ih fun j hj => h j (by omega)
    rw [storeLanes_succ]
    split_ifs with hn
    · rw [Function.update_of_ne (h n (by omega) hn).symm, ih]
    · exact ih

/-- Where the lanes that store do so with one value. -/
theorem storeLanes_lane {j : ℕ} (hj : j < n) (hmask : mask j = true)
    (h : ∀ i < n, mask i = true → address i = address j → values i = values j) :
    storeLanes n mask m address values (address j) = values j := by
  induction n with
  | zero => omega
  | succ n ih =>
    rw [storeLanes_succ]
    have hbefore : j < n → storeLanes n mask m address values (address j) = values j :=
      fun hlt => ih hlt fun i hi => h i (by omega)
    split_ifs with hn
    · by_cases hlast : address n = address j
      · rw [← hlast, Function.update_self]
        exact h n (by omega) hn hlast
      · have hne : j ≠ n := fun heq => hlast (by rw [heq])
        rw [Function.update_of_ne (Ne.symm hlast)]
        exact hbefore (by omega)
    · have hne : j ≠ n := fun heq => hn (heq ▸ hmask)
      exact hbefore (by omega)

end

theorem topK_le_blockK (cfg : Config α τ) : cfg.topK ≤ cfg.blockK := Nat.le_pow_clog (by decide) _

section
variable {cfg : Config α τ} {β : Type*} {m : ℕ → β} {address : ℕ → ℕ} {values : ℕ → β}

theorem store_other {x : ℕ} (h : ∀ j < cfg.topK, address j ≠ x) :
    cfg.store m address values x = m x :=
  storeLanes_other fun j _ hj => h j (of_decide_eq_true hj)

theorem store_lane {j : ℕ} (hj : j < cfg.topK)
    (h : ∀ i < cfg.topK, address i = address j → values i = values j) :
    cfg.store m address values (address j) = values j :=
  storeLanes_lane (hj.trans_le (topK_le_blockK cfg)) (decide_eq_true hj)
    fun i _ hi => h i (of_decide_eq_true hi)

theorem store_own {j : ℕ} (hj : j < cfg.topK) : cfg.store m id values j = values j :=
  store_lane hj fun _ _ hi => congrArg values hi

end

/-! ### The entries of a batch -/

section
variable (cfg : Config α τ)

/-- The assumptions on a batch: its entries have the request state of their row, the requests have
states of their own, and the candidates of an entry are distinct. -/
structure Batch.Ok (b : Batch α τ) : Prop where
  sameState : ∀ row < b.numReqs, ∀ step < cfg.numSteps,
    b.sampleIdxMapping (row * cfg.numSteps + step) = b.sampleIdxMapping (row * cfg.numSteps)
  ownState : ∀ row < b.numReqs, ∀ row' < b.numReqs, 0 ≤ b.sampleIdxMapping (row * cfg.numSteps) →
    b.sampleIdxMapping (row * cfg.numSteps) = b.sampleIdxMapping (row' * cfg.numSteps) → row = row'
  distinct : ∀ row < b.numReqs, ∀ step < cfg.numSteps, Set.InjOn (b.candidateIds row step)
    {j | j < cfg.topK}

/-- The request state of a row. -/
def Batch.state (b : Batch α τ) (row : ℕ) : ℕ := (b.sampleIdxMapping (row * cfg.numSteps)).toNat

/-- The entries of the batch that have a request. -/
def Batch.Entry (b : Batch α τ) (row step : ℕ) : Prop :=
  row < b.numReqs ∧ step < cfg.numSteps ∧ 0 ≤ b.sampleIdxMapping (row * cfg.numSteps)

/-- The request state and the step of a program. -/
def slotOf (b : Batch α τ) (flat : ℕ) : ℕ × ℕ :=
  ((b.sampleIdxMapping flat).toNat, flat % cfg.numSteps)

end

section
variable {cfg : Config α τ}

/-- The program of an entry. -/
theorem flat_lt {b : Batch α τ} {row step : ℕ} (he : b.Entry cfg row step) :
    row * cfg.numSteps + step < b.numReqs * cfg.numSteps := by
  have hle : (row + 1) * cfg.numSteps ≤ b.numReqs * cfg.numSteps := Nat.mul_le_mul_right _ he.1
  have := he.2.1
  rw [Nat.succ_mul] at hle
  omega

theorem flat_div {b : Batch α τ} {row step : ℕ} (he : b.Entry cfg row step) :
    (row * cfg.numSteps + step) / cfg.numSteps = row ∧
      (row * cfg.numSteps + step) % cfg.numSteps = step := by
  have hpos : 0 < cfg.numSteps := Nat.zero_lt_of_lt he.2.1
  rw [Nat.mul_comm, Nat.mul_add_div hpos, Nat.mul_add_mod, Nat.div_eq_of_lt he.2.1,
    Nat.mod_eq_of_lt he.2.1]
  exact ⟨rfl, rfl⟩

theorem slotOf_entry {b : Batch α τ} (hb : b.Ok cfg) {row step : ℕ} (he : b.Entry cfg row step) :
    slotOf cfg b (row * cfg.numSteps + step) = (b.state cfg row, step) := by
  rw [slotOf, Batch.state, hb.sameState row he.1 step he.2.1, (flat_div he).2]

end

/-! ### The walk -/

/-- `tl.max(f, axis=0, return_indices=True)` of `n` lanes: the first index of the maximum. -/
def argmax [LinearOrder α] (n : ℕ) (f : ℕ → α) : ℕ :=
  (List.range n).foldl (fun best j => if f best < f j then j else best) 0

variable [LinearOrder α] [OrderBot α]

section
variable [Zero τ] [DecidableEq τ] (cfg : Config α τ)

/-- The index of `gumbel_noised_argmax(logits, keys, mask, seed, pos, temp)`. -/
def gumbelNoisedArgmax (logits : ℕ → α) (keys : ℕ → ℕ) (mask : ℕ → Bool) (seed pos : ℤ)
    (temp : τ) : ℕ :=
  argmax cfg.blockK fun j =>
    if temp ≠ 0 then if mask j then cfg.noised seed pos (keys j) temp (logits j) else ⊥
      else logits j

/-- The index that the walk of a row chooses at a step, after `previous`. -/
def chooseIndex (b : Batch α τ) (row previous step : ℕ) : ℕ :=
  let flat := row * cfg.numSteps + step
  let reqState := b.sampleIdxMapping (row * cfg.numSteps)
  let valid := decide (0 ≤ reqState)
  let mask := fun j => decide (j < cfg.topK) && valid
  gumbelNoisedArgmax cfg
    (fun j => if mask j then b.scores row step previous j else ⊥)
    (fun j => if mask j then b.candidateIds row step j else 0)
    mask
    (if valid then b.seeds reqState.toNat else 0)
    (b.samplePos flat - 1)
    (if cfg.probabilistic then if valid then b.temperature reqState.toNat else 0 else 0)

/-- `previous` at a step: the index that was chosen at the step before. -/
def previous (b : Batch α τ) (row : ℕ) : ℕ → ℕ
  | 0 => 0
  | step + 1 => chooseIndex cfg b row (previous b row step) step

/-- `tl.store(realized_scores_ptr + ..., scores)`. -/
def storeScores (b : Batch α τ) (row step : ℕ) (r : Row α) : Row α :=
  { r with
    selectorScores := Function.update r.selectorScores step
      (cfg.store (r.selectorScores step) id (b.scores row step (previous cfg b row step))) }

/-- `tl.store(tokens_ptr + flat, token)`. -/
def storeToken (b : Batch α τ) (row step : ℕ) (r : Row α) : Row α :=
  { r with draftTokens :=
      Function.update r.draftTokens step (b.candidateIds row step (previous cfg b row (step + 1))) }

/-- The stores of `_selector_walk_kernel` in the program `row`. -/
def walkProgram (b : Batch α τ) (row : ℕ) : List (Row α → Row α) :=
  if row < b.numReqs ∧ 0 ≤ b.sampleIdxMapping (row * cfg.numSteps) then
    (List.range cfg.numSteps).flatMap fun step =>
      [storeScores cfg b row step, storeToken cfg b row step]
  else []

/-- `_sample_path(candidate_ids, scores, num_reqs)`. -/
def SamplePath (b : Batch α τ) (s s' : Speculator α) : Prop :=
  Owners.Runs id (walkProgram cfg b) s.rows s'.rows ∧ s'.slots = s.slots

end

/-! ### The cache of the logits -/

section
variable (cfg : Config α τ)

/-- `tl.store(logits_base + old_token_ids, -float("inf"))`. -/
def clearOld (slot : Slot α) : Slot α :=
  { slot with draftLogits := cfg.store slot.draftLogits slot.cachedCandidateIds fun _ => ⊥ }

/-- `tl.store(logits_base + token_ids, scores)`. -/
def storeNew (tokenIds : ℕ → ℕ) (scores : ℕ → α) (slot : Slot α) : Slot α :=
  { slot with draftLogits := cfg.store slot.draftLogits tokenIds scores }

/-- `tl.store(cached_candidate_ptr + cache_base + offsets, token_ids)`. -/
def storeIds (tokenIds : ℕ → ℕ) (slot : Slot α) : Slot α :=
  { slot with cachedCandidateIds := cfg.store slot.cachedCandidateIds id tokenIds }

/-- The stores of `_cache_draft_logits_kernel` in the program `flat`. -/
def cacheProgram (b : Batch α τ) (rows : ℕ → Row α) (flat : ℕ) : List (Slot α → Slot α) :=
  let row := flat / cfg.numSteps
  let step := flat % cfg.numSteps
  if flat < b.numReqs * cfg.numSteps ∧ 0 ≤ b.sampleIdxMapping flat then
    [clearOld cfg, storeNew cfg (b.candidateIds row step) ((rows row).selectorScores step),
      storeIds cfg (b.candidateIds row step)]
  else []

/-- `_cache_draft_logits(candidate_ids, num_sample)`. -/
def CacheDraftLogits (b : Batch α τ) (s s' : Speculator α) : Prop :=
  Owners.Runs (slotOf cfg b) (cacheProgram cfg b s.rows) s.slots s'.slots ∧ s'.rows = s.rows

end

/-! ### Calls -/

section
variable [Zero τ] [DecidableEq τ] (cfg : Config α τ)

/-- The two calls of `_generate_draft`. -/
def Drafted (b : Batch α τ) (s s' : Speculator α) : Prop :=
  ∃ t, SamplePath cfg b s t ∧ CacheDraftLogits cfg b t s'

/-- What a call hands over. -/
structure HandedOver (b : Batch α τ) (s s' : Speculator α) : Prop where
  /-- The logits of the candidates are the scores that the walk chose from. -/
  candidate : ∀ row step, b.Entry cfg row step → ∀ j < cfg.topK,
    (s'.slots (b.state cfg row, step)).draftLogits (b.candidateIds row step j) =
      b.scores row step (previous cfg b row step) j
  /-- The logits of the other tokens are minus infinity. -/
  other : ∀ row step, b.Entry cfg row step →
    ∀ token, (∀ j < cfg.topK, b.candidateIds row step j ≠ token) →
    (s'.slots (b.state cfg row, step)).draftLogits token = ⊥
  /-- The drafted token is the candidate of the chosen index. -/
  token : ∀ row step, b.Entry cfg row step → previous cfg b row (step + 1) < cfg.topK ∧
    (s'.rows row).draftTokens step = b.candidateIds row step (previous cfg b row (step + 1))
  /-- The request states that are not in the call keep their entries. -/
  unchanged : ∀ state step :
    ℕ, (∀ row < b.numReqs, b.sampleIdxMapping (row * cfg.numSteps) ≠ state) →
    s'.slots (state, step) = s.slots (state, step)

/-- The speculators that sequences of calls lead to. -/
inductive Reached : Speculator α → Prop where
  /-- `__init__`: the logits are minus infinity and the cached candidates are zeros. -/
  | init (rows : ℕ → Row α) : Reached ⟨rows, fun _ => ⟨fun _ => ⊥, fun _ => 0⟩⟩
  /-- A call. -/
  | call {s s' : Speculator α} {b : Batch α τ} : Reached s → b.Ok cfg →
      Drafted cfg b s s' → Reached s'

end

variable {cfg : Config α τ}

/-! ### What the walk leaves -/

section
variable [Zero τ] [DecidableEq τ]

/-- The first index of a maximum is that of an element above the least, or 0. -/
theorem argmax_lt {n k : ℕ} {f : ℕ → α} (hk : 0 < k) (h : ∀ j, k ≤ j → f j = ⊥) :
    argmax n f < k := by
  induction n with
  | zero => exact hk
  | succ n ih =>
    rw [argmax, List.range_succ, List.foldl_append, ← argmax, List.foldl_cons, List.foldl_nil]
    split_ifs with hlt
    · by_contra hge
      rw [h n (by omega)] at hlt
      exact not_lt_bot hlt
    · exact ih

/-- The chosen index is one of a candidate. -/
theorem chooseIndex_lt (b : Batch α τ) (row prev step : ℕ) :
    chooseIndex cfg b row prev step < cfg.topK := by
  refine argmax_lt cfg.topK_pos fun j hj => ?_
  simp [Nat.not_lt.mpr hj]

theorem alone_walk (b : Batch α τ) (row n : ℕ) (r : Row α) {step : ℕ} (hstep : step < n) :
    let r' := Owners.alone
      ((List.range n).flatMap fun step => [storeScores cfg b row step, storeToken cfg b row step]) r
    (∀ j < cfg.topK, r'.selectorScores step j = b.scores row step (previous cfg b row step) j) ∧
      r'.draftTokens step = b.candidateIds row step (previous cfg b row (step + 1)) := by
  induction n with
  | zero => omega
  | succ n ih =>
    simp only [List.range_succ, List.flatMap_append, Owners.alone_append, List.flatMap_cons,
      List.flatMap_nil, List.append_nil, Owners.alone_cons, Owners.alone_nil, storeToken,
        storeScores]
    by_cases hlast : step = n
    · subst hlast
      rw [Function.update_self, Function.update_self]
      exact ⟨fun j hj => store_own hj, rfl⟩
    · rw [Function.update_of_ne hlast, Function.update_of_ne hlast]
      exact ih (by omega)

/-- What the walk leaves of an entry. -/
theorem samplePath_entry {b : Batch α τ} {s t : Speculator α} (h : SamplePath cfg b s t)
    {row step : ℕ}
    (he : b.Entry cfg row step) :
    (∀ j < cfg.topK, (t.rows row).selectorScores step j =
      b.scores row step (previous cfg b row step) j) ∧
      (t.rows row).draftTokens step = b.candidateIds row step (previous cfg b row (step + 1)) := by
  have hown := h.1.own (i := row) fun j _ hj => hj
  rw [id] at hown
  rw [hown, walkProgram, if_pos ⟨he.1, he.2.2⟩]
  exact alone_walk b row cfg.numSteps (s.rows row) he.2.1

end

/-! ### What the cache leaves -/

/-- Outside the cached candidates the logits are minus infinity. -/
def Slot.Clean (cfg : Config α τ) (slot : Slot α) : Prop :=
  ∀ token, (∀ j < cfg.topK, slot.cachedCandidateIds j ≠ token) → slot.draftLogits token = ⊥

/-- What the stores of a program leave of its slot. -/
theorem alone_cache {slot : Slot α} (hclean : slot.Clean cfg) {tokenIds : ℕ → ℕ} (scores : ℕ → α)
    (hdistinct : Set.InjOn tokenIds {j | j < cfg.topK}) :
    let slot' :=
      Owners.alone [clearOld cfg, storeNew cfg tokenIds scores, storeIds cfg tokenIds] slot
    (∀ j < cfg.topK, slot'.draftLogits (tokenIds j) = scores j) ∧
      (∀ token, (∀ j < cfg.topK, tokenIds j ≠ token) → slot'.draftLogits token = ⊥) ∧
      slot'.Clean cfg := by
  intro slot'
  have hother : ∀ token, (∀ j < cfg.topK, tokenIds j ≠ token) → slot'.draftLogits token = ⊥ := by
    intro token hnone
    have hnew : slot'.draftLogits token = (clearOld cfg slot).draftLogits token := store_other hnone
    rw [hnew]
    by_cases hold : ∃ j < cfg.topK, slot.cachedCandidateIds j = token
    · -- it was written before: it is cleared
      obtain ⟨j, hj, rfl⟩ := hold
      exact store_lane hj fun _ _ _ => rfl
    · push Not at hold
      exact (store_other hold).trans (hclean token hold)
  refine ⟨fun j hj => store_lane hj fun i hi heq => by rw [hdistinct hi hj heq], hother, ?_⟩
  intro token hnone
  refine hother token fun j hj => ?_
  have hid : slot'.cachedCandidateIds j = tokenIds j :=
    store_own hj
  rw [← hid]
  exact hnone j hj

/-- The programs that store something are those of the entries. -/
theorem entry_of_cacheProgram {b : Batch α τ} (hb : b.Ok cfg) {rows : ℕ → Row α} {flat : ℕ}
    (h : cacheProgram cfg b rows flat ≠ []) : ∃ row step, b.Entry cfg row step ∧
      flat = row * cfg.numSteps + step ∧ slotOf cfg b flat = (b.state cfg row, step) := by
  rw [cacheProgram] at h
  split_ifs at h with hflat
  · obtain ⟨hlt, hstate⟩ := hflat
    have hpos : 0 < cfg.numSteps := Nat.pos_of_ne_zero fun h0 => by simp [h0] at hlt
    have hrow : flat / cfg.numSteps < b.numReqs := (Nat.div_lt_iff_lt_mul hpos).mpr hlt
    have hstep := Nat.mod_lt flat hpos
    have heq : flat / cfg.numSteps * cfg.numSteps + flat % cfg.numSteps = flat :=
      Nat.div_add_mod' ..
    have hsame := hb.sameState _ hrow _ hstep
    rw [heq] at hsame
    exact ⟨_, _, ⟨hrow, hstep, hsame ▸ hstate⟩, heq.symm, by rw [slotOf, Batch.state, hsame]⟩
  · exact absurd rfl h

/-- The slots of the entries are their own. -/
theorem slotOf_inj {b : Batch α τ} (hb : b.Ok cfg) {rows : ℕ → Row α} {row step : ℕ}
    (he : b.Entry cfg row step) {flat : ℕ} (h : cacheProgram cfg b rows flat ≠ [])
    (hslot : slotOf cfg b flat = slotOf cfg b (row * cfg.numSteps + step)) :
    flat = row * cfg.numSteps + step := by
  obtain ⟨row', step', he', rfl, hslot'⟩ := entry_of_cacheProgram hb h
  rw [hslot', slotOf_entry hb he, Prod.mk.injEq, Batch.state, Batch.state] at hslot
  obtain ⟨hstate, rfl⟩ := hslot
  have hpos := he.2.2
  have hpos' := he'.2.2
  rw [hb.ownState row' he'.1 row he.1 hpos' (by omega)]

/-- What the cache leaves of an entry. -/
theorem cacheDraftLogits_entry {b : Batch α τ} (hb : b.Ok cfg) {t s' : Speculator α}
    (h : CacheDraftLogits cfg b t s') {row step : ℕ} (he : b.Entry cfg row step) :
    s'.slots (b.state cfg row, step) =
      Owners.alone [clearOld cfg, storeNew cfg (b.candidateIds row step)
        ((t.rows row).selectorScores step),
        storeIds cfg (b.candidateIds row step)] (t.slots (b.state cfg row, step)) := by
  have hown := h.1.own (i := row * cfg.numSteps + step) fun flat hne => slotOf_inj hb he hne
  have hstate : 0 ≤ b.sampleIdxMapping (row * cfg.numSteps + step) := by
    rw [hb.sameState row he.1 step he.2.1]
    exact he.2.2
  rw [slotOf_entry hb he, cacheProgram, if_pos ⟨flat_lt he, hstate⟩, (flat_div he).1,
    (flat_div he).2] at hown
  exact hown

/-- The slots that no entry has stay. -/
theorem cacheDraftLogits_other {b : Batch α τ} (hb : b.Ok cfg) {t s' : Speculator α}
    (h : CacheDraftLogits cfg b t s') {k : ℕ × ℕ}
    (hk : ∀ row step, b.Entry cfg row step → (b.state cfg row, step) ≠ k) :
    s'.slots k = t.slots k := by
  refine h.1.other fun flat hne => ?_
  obtain ⟨row, step, he, -, hslot⟩ := entry_of_cacheProgram hb hne
  rw [hslot]
  exact hk row step he

/-! ### Sequences of calls -/

variable [Zero τ] [DecidableEq τ]

/-- A call keeps the slots clean. -/
theorem clean_drafted {b : Batch α τ} (hb : b.Ok cfg) {s s' : Speculator α}
    (hd : Drafted cfg b s s')
    (hclean : ∀ k, (s.slots k).Clean cfg) (k : ℕ × ℕ) : (s'.slots k).Clean cfg := by
  obtain ⟨t, hwalk, hcache⟩ := hd
  by_cases hk : ∃ row step, b.Entry cfg row step ∧ (b.state cfg row, step) = k
  · obtain ⟨row, step, he, rfl⟩ := hk
    rw [cacheDraftLogits_entry hb hcache he, hwalk.2]
    exact (alone_cache (hclean _) _ (hb.distinct row he.1 step he.2.1)).2.2
  · push Not at hk
    rw [cacheDraftLogits_other hb hcache hk, hwalk.2]
    exact hclean k

theorem Reached.clean {s : Speculator α} (h : Reached cfg s) (k : ℕ × ℕ) :
    (s.slots k).Clean cfg := by
  induction h generalizing k with
  | init rows => exact fun _ _ => rfl
  | call _ hb hd ih => exact clean_drafted hb hd ih k

/-- The launches of a call can run. -/
theorem exists_drafted (b : Batch α τ) (s : Speculator α) : ∃ s', Drafted cfg b s s' := by
  have hwalk : Owners.Runs id (walkProgram cfg b) s.rows _ :=
    Owners.runs_serial (List.nodup_range (n := b.numReqs)) fun row hne => by
      rw [walkProgram] at hne
      split_ifs at hne with hrow
      · exact List.mem_range.mpr hrow.1
      · exact absurd rfl hne
  have hcache : Owners.Runs (slotOf cfg b)
      (cacheProgram cfg b (Owners.serial id (walkProgram cfg b) (List.range b.numReqs) s.rows))
          s.slots _ :=
    Owners.runs_serial (List.nodup_range (n := b.numReqs * cfg.numSteps)) fun flat hne => by
      rw [cacheProgram] at hne
      split_ifs at hne with hflat
      · exact List.mem_range.mpr hflat.1
      · exact absurd rfl hne
  exact ⟨⟨_, _⟩, ⟨_, s.slots⟩, ⟨hwalk, rfl⟩, ⟨hcache, rfl⟩⟩

/-- **The draft distribution**: after any sequence of calls, a call hands over the scores that the
walk of its entries chose from, and nothing else. -/
theorem sampled_logits {s s' : Speculator α} (hs : Reached cfg s) {b : Batch α τ} (hb : b.Ok cfg)
    (hd : Drafted cfg b s s') : HandedOver cfg b s s' := by
  obtain ⟨t, hwalk, hcache⟩ := hd
  have hslot : ∀ row step, b.Entry cfg row step → _ := fun row step he =>
    alone_cache (hs.clean (b.state cfg row, step)) ((t.rows row).selectorScores step)
      (hb.distinct row he.1 step he.2.1)
  refine ⟨fun row step he j hj => ?_, fun row step he token hnone => ?_, fun row step he => ?_,
    fun state step hnone => ?_⟩
  · rw [cacheDraftLogits_entry hb hcache he, hwalk.2, (hslot row step he).1 j hj]
    exact (samplePath_entry hwalk he).1 j hj
  · rw [cacheDraftLogits_entry hb hcache he, hwalk.2]
    exact (hslot row step he).2.1 token hnone
  · rw [hcache.2]
    exact ⟨chooseIndex_lt b row _ step, (samplePath_entry hwalk he).2⟩
  · rw [cacheDraftLogits_other hb hcache fun row step' he heq => ?_, hwalk.2]
    have hstate := he.2.2
    have hrow := hnone row he.1
    rw [Prod.mk.injEq, Batch.state] at heq
    omega

/-- Two steps over two candidates; the noise of a token is its number. -/
def twoCandidates : Config (WithBot ℤ) ℕ :=
  ⟨2, 2, true, fun _ _ token _ x => x + ((token : ℤ) : WithBot ℤ), by decide⟩

/-- A request in the state 4 whose candidates are `first` and the token before it. -/
def requestFrom (first : ℕ) : Batch (WithBot ℤ) ℕ where
  numReqs := 1
  candidateIds := fun _ _ j => first - j
  scores := fun _ _ previous j => (previous + 3 * j : ℤ)
  samplePos := fun _ => 5
  sampleIdxMapping := fun _ => 4
  temperature := fun _ => 1
  seeds := fun _ => 0

theorem requestFrom_ok {first : ℕ} (h : 1 ≤ first) : (requestFrom first).Ok twoCandidates := by
  refine ⟨fun _ _ _ _ => rfl, ?_, ?_⟩
  · intro row hrow row' hrow' _ _
    simp only [requestFrom, Nat.lt_one_iff] at hrow hrow'
    rw [hrow, hrow']
  · intro row _ step _ i hi j hj heq
    simp only [requestFrom, twoCandidates, Set.mem_ofPred_eq] at hi hj heq
    omega

/-- The second call for a request shares a candidate with the first one, and leaves minus infinity
where the first one has left the score of the other. -/
theorem sampled_logits_again :
    let start : Speculator (WithBot ℤ) :=
      ⟨fun _ => ⟨fun _ _ => ⊥, fun _ => 0⟩, fun _ => ⟨fun _ => ⊥, fun _ => 0⟩⟩
    ∃ s₁ s₂, Drafted twoCandidates (requestFrom 10) start s₁ ∧
      Drafted twoCandidates (requestFrom 9) s₁ s₂ ∧
      HandedOver twoCandidates (requestFrom 9) s₁ s₂ ∧
      (s₁.slots (4, 1)).draftLogits 10 = ((1 : ℤ) : WithBot ℤ) ∧
      (s₂.slots (4, 1)).draftLogits 10 = ⊥ ∧
      (s₂.slots (4, 1)).draftLogits 9 = ((1 : ℤ) : WithBot ℤ) := by
  intro start
  obtain ⟨s₁, h₁⟩ : ∃ s₁, Drafted twoCandidates (requestFrom 10) start s₁ := exists_drafted _ start
  obtain ⟨s₂, h₂⟩ : ∃ s₂, Drafted twoCandidates (requestFrom 9) s₁ s₂ := exists_drafted _ s₁
  have hok₁ : (requestFrom 10).Ok twoCandidates := requestFrom_ok (by decide)
  have hok₂ : (requestFrom 9).Ok twoCandidates := requestFrom_ok (by decide)
  have hfirst := sampled_logits (.init _) hok₁ h₁
  have hsecond := sampled_logits (.call (.init _) hok₁ h₁) hok₂ h₂
  have he : ∀ first, (requestFrom first).Entry twoCandidates 0 1 :=
    fun _ => ⟨Nat.zero_lt_one, Nat.one_lt_two, by simp [requestFrom]⟩
  refine ⟨s₁, s₂, h₁, h₂, hsecond, ?_, ?_, ?_⟩
  · exact (hfirst.candidate 0 1 (he 10) 0 (by decide)).trans (by decide)
  · refine hsecond.other 0 1 (he 9) 10 fun j _ => ?_
    simp only [requestFrom]
    omega
  · exact (hsecond.candidate 0 1 (he 9) 0 (by decide)).trans (by decide)

end Glm53Serve.Dflash
