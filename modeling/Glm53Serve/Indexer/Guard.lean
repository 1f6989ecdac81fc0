import Glm53Serve.Indexer.Workspace

/-!
# The workspace guard

The workspace is sized from `vllm_config`, before the runtime knows by which ratio it will
compress the keys. `patch_indexer_workspace.py` therefore adds a cross-check to the
`__init__` of the metadata builder, which knows the ratio.

## The model

The part of `__init__` from the compress ratio to the end of the check. Errors carry the
values that their messages print; `int` of an infinite `index_kpool` raises out of both
functions. The size of a workspace is a natural number.

## What is proved

* `crossCheck_ok` — what a passed check says of the ratios and of the size.
* `crossCheck_sound` — in rightsize mode a builder is made only on a workspace of the stock
  size or one that holds every legal batch, and never where the ratios disagree.
* `crossCheck_sized` — where they agree, the check passes on the workspace as sized.
-/

namespace Glm53Serve.Indexer

open Py

/-- What the sizing and the check raise. -/
inductive GuardError where
  /-- `NotImplementedError`: DCP with compressed keys. -/
  | dcp (compressRatio : ℤ)
  /-- `GLM53_INDEXER_WORKSPACE must be exactly one of: stock rightsize`. -/
  | mode (raw : String)
  /-- `int` of `index_kpool` raises. -/
  | kpool (e : IntError)
  /-- `compress-ratio disagreement`. -/
  | disagreement (indexKpool compressRatio : ℤ)
  /-- The workspace `is below the legal per-step maximum`. -/
  | below (size need compressRatio maxNumSeqs : ℤ)
  deriving DecidableEq

/-- A workspace mode. -/
inductive WorkspaceMode where
  | stock
  | rightsize
  deriving DecidableEq

/-- `_glm53_workspace_mode()`; `raw` is the environment variable. -/
def workspaceMode (raw : Option String) : Except GuardError WorkspaceMode :=
  match raw with
  | none => .ok .stock
  | some raw =>
    if raw = "stock" then .ok .stock
    else if raw = "rightsize" then .ok .rightsize
    else .error (.mode raw)

/-- `get_max_prefill_buffer_size(vllm_config)`. -/
def getMaxPrefillBufferSize (raw : Option String) (cfg : VllmConfig) : Except GuardError ℤ :=
  let stock := stockWorkspaceEntries cfg.maxModelLen
  match workspaceMode raw with
  | .error e => .error e
  | .ok .stock => .ok stock
  | .ok .rightsize =>
    match rightsizedWorkspaceEntries cfg with
    | .error e => .error (.kpool e)
    | .ok entries => .ok (if stock ≤ entries then stock else entries)

/-- What the builder knows besides `vllm_config`. -/
structure Builder where
  /-- `kv_cache_spec.compress_ratio`, `none` if the spec is not an `MLAAttentionSpec`. -/
  specRatio : Option ℤ
  dcpWorldSize : ℤ
  maxPrefillBufferSize : ℕ

/-- `self.compress_ratio`. -/
def Builder.compressRatio (b : Builder) : ℤ := b.specRatio.getD 1

/-- The cross-check of `__init__`. -/
def crossCheck (raw : Option String) (cfg : VllmConfig) (b : Builder) : Except GuardError Unit :=
  if 1 < b.dcpWorldSize ∧ 1 < b.compressRatio then .error (.dcp b.compressRatio)
  else
    match workspaceMode raw with
    | .error e => .error e
    | .ok .stock => .ok ()
    | .ok .rightsize =>
      match indexerCompressRatio cfg with
      | .error e => .error (.kpool e)
      | .ok cfgRatio =>
        if cfgRatio ≠ b.compressRatio then .error (.disagreement cfgRatio b.compressRatio)
        else
          match rightsizedWorkspaceEntries cfg with
          | .error e => .error (.kpool e)
          | .ok need =>
            if (b.maxPrefillBufferSize : ℤ) < min need (stockWorkspaceEntries cfg.maxModelLen) then
              .error (.below b.maxPrefillBufferSize need b.compressRatio cfg.maxNumSeqs)
            else .ok ()

/-! ### The ratio and the size -/

/-- The configured ratio is never below 1. -/
theorem one_le_indexerCompressRatio {cfg : VllmConfig} {ratio : ℤ}
    (h : indexerCompressRatio cfg = .ok ratio) : 1 ≤ ratio := by
  rw [indexerCompressRatio] at h
  split at h
  · obtain rfl := Except.ok.inj h
    split_ifs <;> omega
  · cases h
  · rw [← Except.ok.inj h]

/-- The sizing from the ratio it finds. -/
theorem rightsizedWorkspaceEntries_eq {cfg : VllmConfig} {ratio : ℤ}
    (h : indexerCompressRatio cfg = .ok ratio) :
    rightsizedWorkspaceEntries cfg = .ok (if ratio ≤ 1 then stockWorkspaceEntries cfg.maxModelLen
      else min (-(-(cfg.maxModelLen + max 0 (cfg.numSpeculativeTokens.getD 0)) / ratio) *
        max 1 (min cfg.maxNumSeqs cfg.maxNumBatchedTokens))
        (stockWorkspaceEntries cfg.maxModelLen)) := by
  simp only [rightsizedWorkspaceEntries, h, bind, Except.bind]
  split_ifs <;> rfl

theorem rightsized_le_stock {cfg : VllmConfig} {entries : ℤ}
    (h : rightsizedWorkspaceEntries cfg = .ok entries) :
    entries ≤ stockWorkspaceEntries cfg.maxModelLen := by
  cases hratio : indexerCompressRatio cfg with
  | error e => simp [rightsizedWorkspaceEntries, hratio, bind, Except.bind] at h
  | ok ratio =>
    rw [rightsizedWorkspaceEntries_eq hratio] at h
    rw [← Except.ok.inj h]
    split_ifs
    · exact le_rfl
    · exact min_le_right _ _

/-- The right-sized workspace is the stock one, or holds every batch of as many requests as
a step takes, none longer than a request gets. -/
theorem sum_le_rightsized {cfg : VllmConfig} {ratio entries : ℤ}
    (hratio : indexerCompressRatio cfg = .ok ratio)
    (h : rightsizedWorkspaceEntries cfg = .ok entries) :
    stockWorkspaceEntries cfg.maxModelLen ≤ entries ∨
      ∀ seqs : List ℕ, seqs ≠ [] →
        (seqs.length : ℤ) ≤ min cfg.maxNumSeqs cfg.maxNumBatchedTokens →
        (∀ s ∈ seqs, (s : ℤ) ≤ (cfg.maxModelLen + cfg.numSpeculativeTokens.getD 0) / ratio) →
        ((seqs.sum : ℕ) : ℤ) ≤ entries := by
  rw [rightsizedWorkspaceEntries_eq hratio] at h
  obtain rfl := (Except.ok.inj h).symm
  split_ifs with hone
  · exact .inl le_rfl
  have hpos : 0 < ratio := by omega
  rcases min_choice (-(-(cfg.maxModelLen + max 0 (cfg.numSpeculativeTokens.getD 0)) / ratio) *
      max 1 (min cfg.maxNumSeqs cfg.maxNumBatchedTokens)) (stockWorkspaceEntries cfg.maxModelLen)
    with hmin | hmin
  · refine .inr fun seqs hne hlen hseq => ?_
    rw [hmin]
    set perReq := -(-(cfg.maxModelLen + max 0 (cfg.numSpeculativeTokens.getD 0)) / ratio)
    -- the longest request of a step fits the share of a request
    have hfloor : (cfg.maxModelLen + cfg.numSpeculativeTokens.getD 0) / ratio ≤ perReq :=
      (Int.ediv_le_ediv hpos (by omega)).trans (ediv_le_neg_ediv_neg _ hpos)
    have hle : ∀ s ∈ seqs, (s : ℤ) ≤ perReq := fun s hs => (hseq s hs).trans hfloor
    have hshare : 0 ≤ perReq := by
      obtain ⟨s, hs⟩ := List.exists_mem_of_ne_nil seqs hne
      exact (Int.natCast_nonneg s).trans (hle s hs)
    have hsum : ((seqs.sum : ℕ) : ℤ) ≤ seqs.length * perReq := by
      have hcard := List.sum_le_card_nsmul (seqs.map fun s : ℕ => (s : ℤ)) perReq (by
        intro x hx
        obtain ⟨s, hs, rfl⟩ := List.mem_map.mp hx
        exact hle s hs)
      rw [← Nat.cast_list_sum] at hcard
      simpa using hcard
    calc ((seqs.sum : ℕ) : ℤ) ≤ seqs.length * perReq := hsum
      _ ≤ max 1 (min cfg.maxNumSeqs cfg.maxNumBatchedTokens) * perReq :=
          mul_le_mul_of_nonneg_right (hlen.trans (le_max_right _ _)) hshare
      _ = perReq * max 1 (min cfg.maxNumSeqs cfg.maxNumBatchedTokens) := mul_comm _ _
  · exact .inl hmin.ge

/-! ### The check -/

/-- In rightsize mode a passed check has compared the ratios and the size. -/
theorem crossCheck_ok {cfg : VllmConfig} {b : Builder}
    (h : crossCheck (some "rightsize") cfg b = .ok ()) :
    indexerCompressRatio cfg = .ok b.compressRatio ∧
      ∃ need, rightsizedWorkspaceEntries cfg = .ok need ∧ need ≤ b.maxPrefillBufferSize := by
  have hmode : workspaceMode (some "rightsize") = .ok .rightsize := rfl
  rw [crossCheck, hmode] at h
  split_ifs at h
  cases hratio : indexerCompressRatio cfg with
  | error e => simp only [hratio] at h; cases h
  | ok ratio =>
    cases hneed : rightsizedWorkspaceEntries cfg with
    | error e =>
      simp only [hratio, hneed] at h
      split_ifs at h
    | ok need =>
      simp only [hratio, hneed] at h
      split_ifs at h with hne hlt
      rw [min_eq_left (rightsized_le_stock hneed)] at hlt
      exact ⟨congrArg Except.ok (not_not.mp hne), need, rfl, not_lt.mp hlt⟩

/-- **Fail-closed sizing**: in rightsize mode, a check that passes leaves a workspace of the
stock size at least, or one that holds every legal batch under the runtime ratio; and where
the configured ratio is not the runtime's, the check raises. -/
theorem crossCheck_sound (cfg : VllmConfig) (b : Builder) :
    (crossCheck (some "rightsize") cfg b = .ok () →
      stockWorkspaceEntries cfg.maxModelLen ≤ b.maxPrefillBufferSize ∨
        ∀ seqs : List ℕ,
          (seqs.length : ℤ) ≤ min cfg.maxNumSeqs cfg.maxNumBatchedTokens →
          (∀ s ∈ seqs,
            (s : ℤ) ≤ (cfg.maxModelLen + cfg.numSpeculativeTokens.getD 0) / b.compressRatio) →
          seqs.sum ≤ b.maxPrefillBufferSize) ∧
    (indexerCompressRatio cfg ≠ .ok b.compressRatio →
      ∃ e, crossCheck (some "rightsize") cfg b = .error e) := by
  constructor
  · intro h
    obtain ⟨hratio, need, hneed, hle⟩ := crossCheck_ok h
    rcases sum_le_rightsized hratio hneed with hstock | hfit
    · exact .inl (hstock.trans hle)
    · refine .inr fun seqs hlen hseq => ?_
      rcases eq_or_ne seqs [] with rfl | hne
      · exact Nat.zero_le _
      · exact_mod_cast (hfit seqs hne hlen hseq).trans hle
  · intro hne
    cases h : crossCheck (some "rightsize") cfg b with
    | error e => exact ⟨e, rfl⟩
    | ok u => exact absurd (crossCheck_ok h).1 hne

/-- Where the ratios agree, the check passes on the workspace as it is sized. -/
theorem crossCheck_sized {cfg : VllmConfig} {b : Builder} (hdcp : b.dcpWorldSize ≤ 1)
    (hratio : indexerCompressRatio cfg = .ok b.compressRatio)
    (hsize : getMaxPrefillBufferSize (some "rightsize") cfg = .ok (b.maxPrefillBufferSize : ℤ)) :
    crossCheck (some "rightsize") cfg b = .ok () := by
  have hmode : workspaceMode (some "rightsize") = .ok .rightsize := rfl
  have hneed := rightsizedWorkspaceEntries_eq hratio
  rw [getMaxPrefillBufferSize, hmode, hneed] at hsize
  have hle := rightsized_le_stock hneed
  have hsize := Except.ok.inj hsize
  rw [crossCheck, hmode, if_neg (not_and_of_not_left _ (not_lt.mpr hdcp)), hratio, hneed]
  simp only [ne_eq, not_true_eq_false, if_false]
  rw [if_neg]
  rw [min_eq_left hle, ← hsize]
  split_ifs <;> omega

/-- A million tokens pooled by four: the sized workspace passes, and not under the ratio 1. -/
example :
    crossCheck (some "rightsize") ⟨1000000, .int 4, 16, 2048, some 7⟩
      ⟨some 4, 1, 4000032⟩ = .ok () ∧
      crossCheck (some "rightsize") ⟨1000000, .int 4, 16, 2048, some 7⟩ ⟨none, 1, 4000032⟩ =
        .error (.disagreement 4 1) := by
  decide

end Glm53Serve.Indexer
