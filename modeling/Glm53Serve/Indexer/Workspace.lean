import Glm53Serve.Py.Int
import Mathlib.Algebra.BigOperators.Ring.Finset
import Mathlib.Algebra.Order.BigOperators.Group.List
import Mathlib.Tactic.Linarith

/-!
# The indexer prefill workspace

The sparse indexer gathers compressed keys of the prefill requests of a step into a
workspace of fixed size, and splits the requests into chunks that fit it
(`split_indexer_prefill_chunks`, whose host replica is `split_prefill_chunks`). The
overlay `patch_indexer_workspace.py` sizes the workspace at the most a legal step can
ask for instead of at forty times the model length.

## The model

Lengths are naturals, sizes are integers. The splitter walks over the requests with an
index; here it walks over the requests that remain, with the index of the first of
them. `//` is division rounding down, which is `/` on the integers as all divisors here
are positive.

## What is proved

* `packRequests_length` — every turn of the outer loop takes at least one request, which
  is why `splitFrom` terminates.
* `splitFrom_congr` — two workspaces that hold all requests at once give the same chunks.
* `splitPrefillChunks_rightsized` — so the right-sized workspace gives the chunks of the
  stock one on every batch that the scheduler can form.
-/

namespace Glm53Serve.Indexer

open Py

/-- What the sizing reads of `vllm_config`. -/
structure VllmConfig where
  /-- `model_config.max_model_len`. -/
  maxModelLen : ℤ
  /-- `model_config.hf_text_config.index_kpool`, `none` where either is absent. -/
  indexKpool : Value
  /-- `scheduler_config.max_num_seqs`. -/
  maxNumSeqs : ℤ
  /-- `scheduler_config.max_num_batched_tokens`. -/
  maxNumBatchedTokens : ℤ
  /-- `speculative_config.num_speculative_tokens`, `none` where either is absent. -/
  numSpeculativeTokens : Option ℤ

/-- `_glm53_stock_workspace_entries(max_model_len)`. -/
def stockWorkspaceEntries (maxModelLen : ℤ) : ℤ := maxModelLen * 40

/-- `_glm53_indexer_compress_ratio(vllm_config)`; `int` of an infinity raises past it. -/
def indexerCompressRatio (cfg : VllmConfig) : Except IntError ℤ :=
  match (if cfg.indexKpool.truthy then cfg.indexKpool else .int 1).toInt with
  | .ok ratio => .ok (if 1 < ratio then ratio else 1)
  | .error .overflowError => .error .overflowError
  | .error _ => .ok 1

/-- `_glm53_rightsized_workspace_entries(vllm_config)`. -/
def rightsizedWorkspaceEntries (cfg : VllmConfig) : Except IntError ℤ := do
  let stock := stockWorkspaceEntries cfg.maxModelLen
  let ratio ← indexerCompressRatio cfg
  if ratio ≤ 1 then return stock
  let numSpec := cfg.numSpeculativeTokens.getD 0
  let maxPrefillReqs := max 1 (min cfg.maxNumSeqs cfg.maxNumBatchedTokens)
  let span := cfg.maxModelLen + max 0 numSpec
  let perReq := -(-span / ratio)
  return min (perReq * maxPrefillReqs) stock

/-- A chunk: the requests `start ..< stop`, and the query rows `start ..< stop` of them. -/
abbrev Chunk := (ℕ × ℕ) × (ℕ × ℕ)

/-- Where the inner loop stands: the index of the next request, the query rows and
compressed keys packed so far, and the requests that remain. A request is its query
length and its compressed length. -/
structure Pack where
  stop : ℕ
  chunkM : ℕ
  chunkN : ℕ
  rest : List (ℕ × ℕ)
  deriving DecidableEq

/-- The inner loop: take requests while the keys fit the workspace and the logits fit
their budget. -/
def packRequests (workspaceSize maxLogitsElems : ℤ) (stop chunkM chunkN : ℕ) : List (ℕ × ℕ) → Pack
  | [] => ⟨stop, chunkM, chunkN, []⟩
  | (q, s) :: reqs =>
    let newM := chunkM + q
    let newN := chunkN + s
    if (newN : ℤ) ≤ workspaceSize ∧ (newM * newN : ℤ) ≤ maxLogitsElems then
      packRequests workspaceSize maxLogitsElems (stop + 1) newM newN reqs
    else ⟨stop, chunkM, chunkN, (q, s) :: reqs⟩

/-- The sub-chunks of a group of requests: `chunkM` query rows, `maxQ` at a time. -/
def subChunks (reqSlice : ℕ × ℕ) (chunkM maxQ : ℕ) : List Chunk :=
  (List.range ((chunkM + maxQ - 1) / maxQ)).map fun i =>
    (reqSlice, (i * maxQ, i * maxQ + min maxQ (chunkM - i * maxQ)))

/-- The query rows of a sub-chunk. -/
def maxQueryRows (maxLogitsElems : ℤ) (chunkM chunkN : ℕ) : ℕ :=
  if 0 < chunkN then (max 1 (maxLogitsElems / chunkN)).toNat else max 1 chunkM

theorem packRequests_length (ws elems : ℤ) (reqs : List (ℕ × ℕ)) : ∀ stop m n : ℕ,
    (packRequests ws elems stop m n reqs).stop + (packRequests ws elems stop m n reqs).rest.length =
      stop + reqs.length := by
  induction reqs with
  | nil => intro stop m n; rfl
  | cons r reqs ih =>
    obtain ⟨q, s⟩ := r
    intro stop m n
    simp only [packRequests]
    split_ifs
    · rw [ih, List.length_cons]
      omega
    · rfl

theorem le_packRequests_stop (ws elems : ℤ) (reqs : List (ℕ × ℕ)) : ∀ stop m n : ℕ,
    stop ≤ (packRequests ws elems stop m n reqs).stop := by
  induction reqs with
  | nil => intro stop m n; exact le_rfl
  | cons r reqs ih =>
    obtain ⟨q, s⟩ := r
    intro stop m n
    simp only [packRequests]
    split_ifs
    · exact (Nat.le_succ _).trans (ih _ _ _)
    · exact le_rfl

/-- One group: what the inner loop packs, and the first request alone if it packs none. -/
def nextGroup (workspaceSize maxLogitsElems : ℤ) (start q s : ℕ) (reqs : List (ℕ × ℕ)) : Pack :=
  let p := packRequests workspaceSize maxLogitsElems start 0 0 ((q, s) :: reqs)
  if p.stop = start then ⟨start + 1, q, s, reqs⟩ else p

/-- A group takes at least one request. -/
theorem nextGroup_rest_length (ws elems : ℤ) (start q s : ℕ) (reqs : List (ℕ × ℕ)) :
    (nextGroup ws elems start q s reqs).rest.length < reqs.length + 1 := by
  have hlen := packRequests_length ws elems ((q, s) :: reqs) start 0 0
  have hge := le_packRequests_stop ws elems ((q, s) :: reqs) start 0 0
  rw [List.length_cons] at hlen
  simp only [nextGroup]
  split_ifs with he
  · exact Nat.lt_succ_self _
  · omega

/-- The outer loop, from the request with index `start` on. -/
def splitFrom (workspaceSize maxLogitsElems : ℤ) (start : ℕ) : List (ℕ × ℕ) → List Chunk
  | [] => []
  | (q, s) :: reqs =>
    let g := nextGroup workspaceSize maxLogitsElems start q s reqs
    subChunks (start, g.stop) g.chunkM (maxQueryRows maxLogitsElems g.chunkM g.chunkN) ++
      splitFrom workspaceSize maxLogitsElems g.stop g.rest
termination_by reqs => reqs.length
decreasing_by exact nextGroup_rest_length workspaceSize maxLogitsElems start q s reqs

/-- `split_prefill_chunks(compressed_seq_lens, query_lens, workspace_size,
max_logits_bytes)`, for lists of the same length. -/
def splitPrefillChunks (compressedSeqLens queryLens : List ℕ) (workspaceSize maxLogitsBytes : ℤ) :
    List Chunk :=
  splitFrom workspaceSize (maxLogitsBytes / 4) 0 (queryLens.zip compressedSeqLens)

/-! ### The workspace does not decide -/

/-- The compressed keys of the requests. -/
def totalKeys (reqs : List (ℕ × ℕ)) : ℕ := (reqs.map (·.2)).sum

theorem totalKeys_cons (q s : ℕ) (reqs : List (ℕ × ℕ)) :
    totalKeys ((q, s) :: reqs) = s + totalKeys reqs := by
  simp [totalKeys]

/-- What is packed and what remains is what there was. -/
theorem packRequests_totalKeys (ws elems : ℤ) (reqs : List (ℕ × ℕ)) : ∀ stop m n : ℕ,
    (packRequests ws elems stop m n reqs).chunkN +
      totalKeys (packRequests ws elems stop m n reqs).rest = n + totalKeys reqs := by
  induction reqs with
  | nil => intro stop m n; rfl
  | cons r reqs ih =>
    obtain ⟨q, s⟩ := r
    intro stop m n
    simp only [packRequests]
    split_ifs
    · rw [ih, totalKeys_cons, Nat.add_assoc]
    · rfl

/-- Two workspaces that hold what is packed and all that remains pack the same. -/
theorem packRequests_congr {ws ws' : ℤ} (elems : ℤ) (reqs : List (ℕ × ℕ)) : ∀ stop m n : ℕ,
    ((n + totalKeys reqs : ℕ) : ℤ) ≤ ws → ((n + totalKeys reqs : ℕ) : ℤ) ≤ ws' →
    packRequests ws elems stop m n reqs = packRequests ws' elems stop m n reqs := by
  induction reqs with
  | nil => intro stop m n _ _; rfl
  | cons r reqs ih =>
    obtain ⟨q, s⟩ := r
    intro stop m n h h'
    rw [totalKeys_cons] at h h'
    have hfit : ((n + s : ℕ) : ℤ) ≤ ws := by omega
    have hfit' : ((n + s : ℕ) : ℤ) ≤ ws' := by omega
    simp only [packRequests, hfit, hfit', true_and]
    split_ifs
    · exact ih _ _ _ (by rwa [Nat.add_assoc]) (by rwa [Nat.add_assoc])
    · rfl

theorem nextGroup_congr {ws ws' : ℤ} (elems : ℤ) (start q s : ℕ) (reqs : List (ℕ × ℕ))
    (h : (totalKeys ((q, s) :: reqs) : ℤ) ≤ ws) (h' : (totalKeys ((q, s) :: reqs) : ℤ) ≤ ws') :
    nextGroup ws elems start q s reqs = nextGroup ws' elems start q s reqs := by
  simp only [nextGroup,
    packRequests_congr elems ((q, s) :: reqs) start 0 0 (by simpa using h) (by simpa using h')]

theorem totalKeys_nextGroup_rest (ws elems : ℤ) (start q s : ℕ) (reqs : List (ℕ × ℕ)) :
    totalKeys (nextGroup ws elems start q s reqs).rest ≤ totalKeys ((q, s) :: reqs) := by
  have h := packRequests_totalKeys ws elems ((q, s) :: reqs) start 0 0
  simp only [nextGroup]
  split_ifs
  · rw [totalKeys_cons]; exact Nat.le_add_left _ _
  · omega

/-- **Two workspaces that hold all requests at once give the same chunks**: neither
bound ever decides a step of the packing. -/
theorem splitFrom_congr {ws ws' : ℤ} (elems : ℤ) (k : ℕ) : ∀ (reqs : List (ℕ × ℕ)) (start : ℕ),
    reqs.length ≤ k → (totalKeys reqs : ℤ) ≤ ws → (totalKeys reqs : ℤ) ≤ ws' →
    splitFrom ws elems start reqs = splitFrom ws' elems start reqs := by
  induction k with
  | zero =>
    intro reqs start hk _ _
    obtain rfl := List.length_eq_zero_iff.mp (Nat.le_zero.mp hk)
    rw [splitFrom, splitFrom]
  | succ k ih =>
    intro reqs start hk h h'
    match reqs with
    | [] => rw [splitFrom, splitFrom]
    | (q, s) :: reqs =>
      have hlen := nextGroup_rest_length ws' elems start q s reqs
      have hkeys := totalKeys_nextGroup_rest ws' elems start q s reqs
      rw [List.length_cons] at hk
      rw [splitFrom, splitFrom, nextGroup_congr elems start q s reqs h h']
      simp only [List.append_cancel_left_eq]
      exact ih _ _ (by omega) (by omega) (by omega)

/-! ### Legal batches -/

/-- A batch of prefill requests that the scheduler can form under `cfg`, whose keys are
compressed by `ratio`. -/
structure LegalBatch (cfg : VllmConfig) (ratio : ℤ) (compressedSeqLens queryLens : List ℕ) :
    Prop where
  length_eq : queryLens.length = compressedSeqLens.length
  length_le : (compressedSeqLens.length : ℤ) ≤ min cfg.maxNumSeqs cfg.maxNumBatchedTokens
  query_pos : ∀ q ∈ queryLens, 1 ≤ q
  seq_le : ∀ s ∈ compressedSeqLens,
    (s : ℤ) ≤ (cfg.maxModelLen + cfg.numSpeculativeTokens.getD 0) / ratio

/-- The keys of the requests are the compressed lengths. -/
theorem totalKeys_zip {seqs queries : List ℕ} (h : queries.length = seqs.length) :
    totalKeys (queries.zip seqs) = seqs.sum := by
  rw [totalKeys, List.map_snd_zip h.ge]

/-- A legal batch has at most as many keys as requests times the longest request. -/
theorem LegalBatch.sum_le {cfg : VllmConfig} {ratio : ℤ} {seqs queries : List ℕ}
    (h : LegalBatch cfg ratio seqs queries) : ((seqs.sum : ℕ) : ℤ) ≤
      seqs.length * ((cfg.maxModelLen + cfg.numSpeculativeTokens.getD 0) / ratio) := by
  have hle := List.sum_le_card_nsmul (seqs.map fun s : ℕ => (s : ℤ)) _ (by
    intro x hx
    obtain ⟨s, hs, rfl⟩ := List.mem_map.mp hx
    exact h.seq_le s hs)
  rw [← Nat.cast_list_sum] at hle
  simpa using hle

/-- `-(-a // b)` is at least `a // b`. -/
theorem ediv_le_neg_ediv_neg (a : ℤ) {b : ℤ} (hb : 0 < b) : a / b ≤ -(-a / b) := by
  have h1 : a / b * b ≤ a := Int.ediv_mul_le a hb.ne'
  have h2 : -a / b * b ≤ -a := Int.ediv_mul_le (-a) hb.ne'
  nlinarith

/-- The right-sized workspace of a compressed indexer holds every legal batch, or is the
stock one. -/
theorem rightsizedWorkspaceEntries_spec {cfg : VllmConfig} {ratio : ℤ}
    (hratio : indexerCompressRatio cfg = .ok ratio) (hr : 1 < ratio)
    (hM : 1 ≤ cfg.maxModelLen) (hk : 0 ≤ cfg.numSpeculativeTokens.getD 0) :
    ∃ entries, rightsizedWorkspaceEntries cfg = .ok entries ∧
      entries ≤ stockWorkspaceEntries cfg.maxModelLen ∧
      (entries = stockWorkspaceEntries cfg.maxModelLen ∨
        ∀ seqs queries, LegalBatch cfg ratio seqs queries → ((seqs.sum : ℕ) : ℤ) ≤ entries) := by
  have hspan : cfg.maxModelLen + max 0 (cfg.numSpeculativeTokens.getD 0) =
      cfg.maxModelLen + cfg.numSpeculativeTokens.getD 0 := by rw [max_eq_right hk]
  have hok : rightsizedWorkspaceEntries cfg = .ok
      (min (-(-(cfg.maxModelLen + max 0 (cfg.numSpeculativeTokens.getD 0)) / ratio) *
        max 1 (min cfg.maxNumSeqs cfg.maxNumBatchedTokens))
        (stockWorkspaceEntries cfg.maxModelLen)) := by
    simp only [rightsizedWorkspaceEntries, hratio, bind, Except.bind, if_neg (not_le.mpr hr)]
    rfl
  refine ⟨_, hok, min_le_right _ _, ?_⟩
  rcases min_choice
    (-(-(cfg.maxModelLen + max 0 (cfg.numSpeculativeTokens.getD 0)) / ratio) *
      max 1 (min cfg.maxNumSeqs cfg.maxNumBatchedTokens)) (stockWorkspaceEntries cfg.maxModelLen)
    with hmin | hmin
  · refine Or.inr fun seqs queries hb => ?_
    rw [hmin, hspan]
    have hfloor := ediv_le_neg_ediv_neg (cfg.maxModelLen + cfg.numSpeculativeTokens.getD 0)
      (by omega : 0 < ratio)
    have hpos : 0 ≤ (cfg.maxModelLen + cfg.numSpeculativeTokens.getD 0) / ratio :=
      Int.ediv_nonneg (by omega) (by omega)
    have hn : (seqs.length : ℤ) ≤ max 1 (min cfg.maxNumSeqs cfg.maxNumBatchedTokens) :=
      hb.length_le.trans (le_max_right _ _)
    calc ((seqs.sum : ℕ) : ℤ)
        ≤ seqs.length * ((cfg.maxModelLen + cfg.numSpeculativeTokens.getD 0) / ratio) := hb.sum_le
      _ = (cfg.maxModelLen + cfg.numSpeculativeTokens.getD 0) / ratio * seqs.length := mul_comm _ _
      _ ≤ -(-(cfg.maxModelLen + cfg.numSpeculativeTokens.getD 0) / ratio) *
            max 1 (min cfg.maxNumSeqs cfg.maxNumBatchedTokens) :=
          mul_le_mul hfloor hn (Int.natCast_nonneg _) (hpos.trans hfloor)
  · exact Or.inl hmin

/-- **Right-sizing never changes chunking**: on every legal batch, the right-sized
workspace gives the chunks of the stock one, whatever the logits budget. -/
theorem splitPrefillChunks_rightsized {cfg : VllmConfig} {ratio : ℤ}
    (hratio : indexerCompressRatio cfg = .ok ratio) (hr : 1 < ratio) (hM : 1 ≤ cfg.maxModelLen)
    (hk : 0 ≤ cfg.numSpeculativeTokens.getD 0) :
    ∃ entries, rightsizedWorkspaceEntries cfg = .ok entries ∧
      ∀ (seqs queries : List ℕ) (maxLogitsBytes : ℤ), LegalBatch cfg ratio seqs queries →
        splitPrefillChunks seqs queries entries maxLogitsBytes =
          splitPrefillChunks seqs queries (stockWorkspaceEntries cfg.maxModelLen)
            maxLogitsBytes := by
  obtain ⟨entries, hok, hle, hfit⟩ := rightsizedWorkspaceEntries_spec hratio hr hM hk
  refine ⟨entries, hok, fun seqs queries maxLogitsBytes hb => ?_⟩
  rcases hfit with rfl | hfit
  · rfl
  · have hsum := hfit seqs queries hb
    rw [← totalKeys_zip hb.length_eq] at hsum
    exact splitFrom_congr _ _ _ 0 le_rfl hsum (hsum.trans hle)

/-- The chunks of a model of a million tokens whose keys are pooled by four. -/
theorem splitPrefillChunks_rightsized_million :
    ∃ entries, rightsizedWorkspaceEntries ⟨1000000, .int 4, 16, 2048, some 7⟩ = .ok entries ∧
      splitPrefillChunks [250001, 3] [2048, 1] entries 1024 =
        splitPrefillChunks [250001, 3] [2048, 1] (stockWorkspaceEntries 1000000) 1024 := by
  have hratio : indexerCompressRatio ⟨1000000, .int 4, 16, 2048, some 7⟩ = .ok 4 := rfl
  obtain ⟨entries, hok, h⟩ :=
    splitPrefillChunks_rightsized hratio (by decide) (by decide) (by decide)
  exact ⟨entries, hok, h [250001, 3] [2048, 1] 1024 ⟨by decide, by decide, by decide, by decide⟩⟩

end Glm53Serve.Indexer
