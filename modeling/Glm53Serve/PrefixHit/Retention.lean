import Mathlib
import Glm53Serve.PrefixHit.Coordinator
import Glm53Serve.Py.Int

/-!
# Retention by group

`overlay/patch_apc_per_group_retention.py` gives each KV cache group a retention interval of
its own: the drafter's group, which no longer shortens a hit, may keep fewer blocks than
the others. The interval comes from an environment variable or from a rule, and only where
the coordinator has singled the drafter's groups out.

## The model

The five functions of the helper and the block that the overlay adds to `__init__`, after
the upstream check of the global interval. An interval is `none` where it is `None`;
attributes that a spec lacks are `none`. Errors carry the values of their messages.

## What is proved

* `retentionForGroup_ne` — where a group diverges from the global interval.
* `validateRetentionIntervals_eq_ok_iff` — what the last check accepts.
* `retention_guarded` — only drafter groups that the hybrid search passes over diverge, an
  override that is invalid or finds no such group raises, and everything else is accepted.
-/

namespace Glm53Serve.PrefixHit

open Py

/-! ### Groups -/

/-- A spec of a group: its class, and the attributes that the rule reads. -/
structure KvSpec where
  cls : SpecClass
  slidingWindow : Option ℤ
  blockSize : Option ℤ
  deriving DecidableEq

/-- A KV cache group: its spec, and the values of `kv_cache_specs` if that is a dictionary. -/
structure KvGroup where
  spec : KvSpec
  kvCacheSpecs : List KvSpec
  deriving DecidableEq

/-- The spec as the hybrid search looks at it. -/
def KvGroup.toSpec (g : KvGroup) : Spec := ⟨g.spec.cls, g.kvCacheSpecs.map (·.cls)⟩

/-- `_glm53_inner_kv_spec(g.kv_cache_spec)`. -/
def KvGroup.inner (g : KvGroup) : KvSpec := g.kvCacheSpecs.head?.getD g.spec

/-- `_glm53_is_draft_swa_spec(g.kv_cache_spec)`. -/
def KvGroup.isDraft (g : KvGroup) : Bool := g.inner.cls = .slidingWindowSpec

/-- Both overlays tell the drafter's groups alike. -/
theorem isDraftSwaSpec_toSpec (g : KvGroup) : isDraftSwaSpec g.toSpec = g.isDraft := by
  rw [isDraftSwaSpec, innerKvSpec, KvGroup.toSpec, KvGroup.isDraft, KvGroup.inner]
  cases g.kvCacheSpecs <;> rfl

/-! ### The helper -/

/-- What the helper raises. -/
inductive RetentionError where
  /-- `must be an integer`. -/
  | notInteger (raw : Text)
  /-- `must be non-negative`. -/
  | negative (value : ℤ)
  /-- `must be a multiple of scheduler_block_size`. -/
  | notMultiple (value blockSize : ℤ)
  /-- `exceeds the maximum supported retention interval`. -/
  | tooLarge (value maxInterval : ℤ)
  /-- `this coordinator has no EAGLE-exempt drafter sliding-window group`. -/
  | noExemptGroup (swaInterval : ℤ) (eagleGroupIds : List ℤ)
  /-- `prefix-cache retention interval for KV cache group`. -/
  | badInterval (groupId : ℕ) (value blockSize : ℤ)
  /-- `ZeroDivisionError`. -/
  | zeroDivision
  deriving DecidableEq

/-- `max_interval`. -/
def maxInterval : ℤ := 1000000

/-- `_glm53_swa_retention_env(scheduler_block_size)`; `raw` is the environment variable,
empty where it is unset. -/
def swaRetentionEnv (raw : Text) (blockSize : ℤ) : Except RetentionError (Option ℤ) :=
  if strip raw = [] then .ok none
  else
    match Py.int (strip raw) with
    | none => .error (.notInteger raw)
    | some value =>
      if value < 0 then .error (.negative value)
      else if blockSize ≠ 0 ∧ value % blockSize ≠ 0 then .error (.notMultiple value blockSize)
      else if maxInterval < value then .error (.tooLarge value maxInterval)
      else .ok (some value)

/-- The ids of the drafter's groups. -/
def swaGroupIds (groups : List KvGroup) : Finset ℤ :=
  ((groups.zipIdx.filter fun p => p.1.isDraft).map fun p => (p.2 : ℤ)).toFinset

/-- `_glm53_min_exempt_group_ids(kv_cache_groups, eagle_group_ids)`. -/
def minExemptGroupIds (groups : List KvGroup) (eagleGroupIds : Finset ℤ) : Finset ℤ :=
  if swaGroupIds groups = ∅ ∨ eagleGroupIds ≠ swaGroupIds groups then ∅ else swaGroupIds groups

/-- `_glm53_retention_for_group`; an attribute that is `None` or 0 makes the rule inert. -/
def retentionForGroup (g : KvGroup) (globalInterval swaInterval alignmentTokens : Option ℤ)
    (isMinExempt : Bool) : Option ℤ :=
  if ¬ g.isDraft ∨ ¬ isMinExempt then globalInterval
  else
    match swaInterval with
    | some value => some value
    | none =>
      let window := g.inner.slidingWindow.getD 0
      let block := g.inner.blockSize.getD 0
      let alignment := alignmentTokens.getD 0
      if window = 0 ∨ block = 0 ∨ alignment = 0 then globalInterval
      else if alignment ≤ window then globalInterval
      else some 0

/-- `_glm53_resolve_retention_by_group`. -/
def resolveRetentionByGroup (groups : List KvGroup) (eagleGroupIds : Finset ℤ)
    (globalInterval swaInterval alignmentTokens : Option ℤ) :
    Except RetentionError (List (Option ℤ)) :=
  let minExempt := minExemptGroupIds groups eagleGroupIds
  let resolved := groups.zipIdx.map fun p =>
    retentionForGroup p.1 globalInterval swaInterval alignmentTokens ((p.2 : ℤ) ∈ minExempt)
  match swaInterval with
  | none => .ok resolved
  | some value =>
    if minExempt = ∅ then .error (.noExemptGroup value (eagleGroupIds.sort (· ≤ ·)))
    else .ok resolved

/-- The body of the loop of `_glm53_validate_retention_intervals`. -/
def validateInterval (blockSize : ℤ) (groupId : ℕ) (interval : Option ℤ) :
    Except RetentionError Unit :=
  match interval with
  | none => .ok ()
  | some value =>
    if value = 0 then .ok ()
    else if value < 0 then .error (.badInterval groupId value blockSize)
    else if blockSize = 0 then .error .zeroDivision
    else if value % blockSize ≠ 0 then .error (.badInterval groupId value blockSize)
    else .ok ()

/-- The loop, from the group `groupId` on. -/
def validateFrom (blockSize : ℤ) (groupId : ℕ) : List (Option ℤ) → Except RetentionError Unit
  | [] => .ok ()
  | interval :: intervals =>
    match validateInterval blockSize groupId interval with
    | .error e => .error e
    | .ok () => validateFrom blockSize (groupId + 1) intervals

/-- `_glm53_validate_retention_intervals(intervals, scheduler_block_size)`. -/
def validateRetentionIntervals (intervals : List (Option ℤ)) (blockSize : ℤ) :
    Except RetentionError Unit :=
  validateFrom blockSize 0 intervals

/-- The block of `__init__`: `retention_interval_by_group`. The coordinator's alignment is its
block size. -/
def retentionIntervalByGroup (raw : Text) (groups : List KvGroup) (eagleGroupIds : Finset ℤ)
    (globalInterval alignmentTokens : Option ℤ) (blockSize : ℤ) :
    Except RetentionError (List (Option ℤ)) :=
  match swaRetentionEnv raw blockSize with
  | .error e => .error e
  | .ok swaInterval =>
    match resolveRetentionByGroup groups eagleGroupIds globalInterval swaInterval
      alignmentTokens with
    | .error e => .error e
    | .ok intervals =>
      match validateRetentionIntervals intervals blockSize with
      | .error e => .error e
      | .ok () => .ok intervals

/-! ### The override -/

/-- A non-negative multiple of the block size up to the cap. -/
def ValidOverride (blockSize value : ℤ) : Prop :=
  0 ≤ value ∧ blockSize ∣ value ∧ value ≤ maxInterval

variable {raw : Text} {blockSize value : ℤ} {groups : List KvGroup} {eagleGroupIds : Finset ℤ}
  {globalInterval swaInterval alignmentTokens : Option ℤ}

/-- A valid override is read. -/
theorem swaRetentionEnv_of_valid (hraw : strip raw ≠ []) (hint : Py.int (strip raw) = some value)
    (h : ValidOverride blockSize value) : swaRetentionEnv raw blockSize = .ok (some value) := by
  obtain ⟨hneg, hdvd, hmax⟩ := h
  have hmul : ¬ (blockSize ≠ 0 ∧ value % blockSize ≠ 0) :=
    fun hm => hm.2 (Int.emod_eq_zero_of_dvd hdvd)
  rw [swaRetentionEnv, if_neg hraw, hint]
  simp only [if_neg (not_lt.mpr hneg), if_neg hmul, if_neg (not_lt.mpr hmax)]

/-- What is read of an override is what it says; without a block size any number in range is. -/
theorem of_swaRetentionEnv (h : swaRetentionEnv raw blockSize = .ok (some value)) :
    Py.int (strip raw) = some value ∧ 0 ≤ value ∧ (blockSize ≠ 0 → blockSize ∣ value) ∧
      value ≤ maxInterval := by
  rw [swaRetentionEnv] at h
  split_ifs at h with hraw
  · cases h
  cases hint : Py.int (strip raw) with
  | none => simp only [hint] at h; cases h
  | some v =>
    simp only [hint] at h
    split_ifs at h with hneg hmul hmax
    obtain rfl := Option.some.inj (Except.ok.inj h)
    refine ⟨rfl, not_lt.mp hneg, fun hblock => Int.dvd_of_emod_eq_zero ?_, not_lt.mp hmax⟩
    by_contra hm
    exact hmul ⟨hblock, hm⟩

/-- An override that is set is never read as unset. -/
theorem swaRetentionEnv_ne_none (hraw : strip raw ≠ []) :
    swaRetentionEnv raw blockSize ≠ .ok none := by
  rw [swaRetentionEnv, if_neg hraw]
  cases Py.int (strip raw) with
  | none => exact fun h => by cases h
  | some value =>
    simp only
    split_ifs <;> exact fun h => by cases h

/-! ### The exempt groups -/

/-- The ids of the drafter's groups are their positions. -/
theorem mem_swaGroupIds {i : ℤ} :
    i ∈ swaGroupIds groups ↔ ∃ n : ℕ, i = n ∧ ∃ g, groups[n]? = some g ∧ g.isDraft = true := by
  simp only [swaGroupIds, List.mem_toFinset, List.mem_map, List.mem_filter, Prod.exists,
    List.mem_zipIdx_iff_getElem?]
  constructor
  · rintro ⟨g, n, ⟨hg, hd⟩, rfl⟩
    exact ⟨n, rfl, g, hg, hd⟩
  · rintro ⟨n, rfl, g, hg, hd⟩
    exact ⟨g, n, ⟨hg, hd⟩, rfl⟩

/-- A group is exempt if it is a drafter's and exactly those are flagged. -/
theorem mem_minExemptGroupIds {i : ℤ} :
    i ∈ minExemptGroupIds groups eagleGroupIds ↔
      i ∈ swaGroupIds groups ∧ eagleGroupIds = swaGroupIds groups := by
  rw [minExemptGroupIds]
  split_ifs with h
  · simp only [Finset.notMem_empty, false_iff, not_and]
    intro hi heq
    rcases h with h | h
    · rw [h] at hi
      exact absurd hi (Finset.notMem_empty i)
    · exact h heq
  · rw [not_or, not_not] at h
    simp [h.2]

/-- The coordinator has singled out the drafter's groups: there are some, and exactly those are
flagged. -/
def Exempt (groups : List KvGroup) (eagleGroupIds : Finset ℤ) : Prop :=
  (∃ g ∈ groups, g.isDraft = true) ∧
    ∀ i, i ∈ eagleGroupIds ↔ ∃ n : ℕ, i = n ∧ ∃ g, groups[n]? = some g ∧ g.isDraft = true

/-- A group is exempt where the drafter's groups are singled out. -/
theorem minExemptGroupIds_ne_empty_iff :
    minExemptGroupIds groups eagleGroupIds ≠ ∅ ↔ Exempt groups eagleGroupIds := by
  rw [← Finset.nonempty_iff_ne_empty]
  constructor
  · rintro ⟨i, hi⟩
    obtain ⟨hswa, heq⟩ := mem_minExemptGroupIds.mp hi
    obtain ⟨n, -, g, hg, hdraft⟩ := mem_swaGroupIds.mp hswa
    exact ⟨⟨g, List.mem_of_getElem? hg, hdraft⟩, fun j => by rw [heq, mem_swaGroupIds]⟩
  · rintro ⟨⟨g, hmem, hdraft⟩, heq⟩
    obtain ⟨n, hg⟩ := List.mem_iff_getElem?.mp hmem
    refine ⟨n, mem_minExemptGroupIds.mpr ⟨mem_swaGroupIds.mpr ⟨n, rfl, g, hg, hdraft⟩, ?_⟩⟩
    exact Finset.ext fun j => (heq j).trans mem_swaGroupIds.symm

/-! ### The intervals -/

/-- Where a group diverges from the global interval: it is an exempt drafter's group, and
without an override its window is smaller than the alignment, and it keeps 0. -/
theorem retentionForGroup_ne {g : KvGroup} {isMinExempt : Bool}
    (h : retentionForGroup g globalInterval swaInterval alignmentTokens isMinExempt ≠
      globalInterval) :
    g.isDraft = true ∧ isMinExempt = true ∧
      (swaInterval = none → (∃ window ∈ g.inner.slidingWindow, ∃ alignment ∈ alignmentTokens,
          window < alignment) ∧
        retentionForGroup g globalInterval swaInterval alignmentTokens isMinExempt = some 0) := by
  unfold retentionForGroup at h ⊢
  split_ifs at h ⊢ with hexempt
  · exact absurd rfl h
  rw [not_or, not_not, not_not] at hexempt
  refine ⟨hexempt.1, hexempt.2, ?_⟩
  rintro rfl
  simp only at h ⊢
  split_ifs at h ⊢ with hinert hwide
  · exact absurd rfl h
  · exact absurd rfl h
  simp only [not_or] at hinert
  obtain ⟨hwindow, -, halign⟩ := hinert
  cases hw : g.inner.slidingWindow with
  | none => simp [hw] at hwindow
  | some window =>
    cases alignmentTokens with
    | none => simp at halign
    | some alignment =>
      rw [hw] at hwide
      exact ⟨⟨window, rfl, alignment, rfl, not_le.mp hwide⟩, rfl⟩

/-- An interval of a group is the global one, the override, or 0. -/
theorem retentionForGroup_cases (g : KvGroup)
    (globalInterval swaInterval alignmentTokens : Option ℤ)
    (isMinExempt : Bool) :
    retentionForGroup g globalInterval swaInterval alignmentTokens isMinExempt = globalInterval ∨
      (∃ value, swaInterval = some value ∧
        retentionForGroup g globalInterval swaInterval alignmentTokens isMinExempt = some value) ∨
      retentionForGroup g globalInterval swaInterval alignmentTokens isMinExempt = some 0 := by
  unfold retentionForGroup
  split_ifs
  · exact .inl rfl
  · cases swaInterval with
    | some value => exact .inr (.inl ⟨value, rfl, rfl⟩)
    | none =>
      simp only
      split_ifs
      · exact .inl rfl
      · exact .inl rfl
      · exact .inr (.inr rfl)

/-- What is resolved, group by group. -/
theorem resolved_eq {intervals : List (Option ℤ)}
    (h : resolveRetentionByGroup groups eagleGroupIds globalInterval swaInterval alignmentTokens =
      .ok intervals) :
    intervals = groups.zipIdx.map fun p =>
      retentionForGroup p.1 globalInterval swaInterval alignmentTokens
        ((p.2 : ℤ) ∈ minExemptGroupIds groups eagleGroupIds) := by
  unfold resolveRetentionByGroup at h
  cases swaInterval with
  | none => exact (Except.ok.inj h).symm
  | some value =>
    simp only at h
    split_ifs at h
    exact (Except.ok.inj h).symm

/-- Every group gets an interval. -/
theorem length_resolved {intervals : List (Option ℤ)}
    (h : resolveRetentionByGroup groups eagleGroupIds globalInterval swaInterval alignmentTokens =
      .ok intervals) : intervals.length = groups.length := by
  rw [resolved_eq h, List.length_map, List.length_zipIdx]

/-- What a resolved entry is. -/
theorem getElem?_resolved {intervals : List (Option ℤ)}
    (h : resolveRetentionByGroup groups eagleGroupIds globalInterval swaInterval alignmentTokens =
      .ok intervals) {i : ℕ} {entry : Option ℤ} (hi : intervals[i]? = some entry) :
    ∃ g, groups[i]? = some g ∧ entry = retentionForGroup g globalInterval swaInterval
      alignmentTokens
      ((i : ℤ) ∈ minExemptGroupIds groups eagleGroupIds) := by
  rw [resolved_eq h, List.getElem?_map, List.getElem?_zipIdx] at hi
  cases hg : groups[i]? with
  | none => simp [hg] at hi
  | some g =>
    simp only [hg, Option.map_some, Option.some.injEq, Nat.zero_add] at hi
    exact ⟨g, rfl, hi.symm⟩

/-! ### The last check -/

/-- An entry that the last check accepts. -/
def ValidInterval (blockSize : ℤ) (interval : Option ℤ) : Prop :=
  ∀ value ∈ interval, value = 0 ∨ (0 < value ∧ blockSize ≠ 0 ∧ blockSize ∣ value)

theorem validateInterval_eq_ok_iff {groupId : ℕ} {interval : Option ℤ} :
    validateInterval blockSize groupId interval = .ok () ↔ ValidInterval blockSize interval := by
  cases interval with
  | none => simp [validateInterval, ValidInterval]
  | some value =>
    simp only [validateInterval, ValidInterval, Option.mem_def, Option.some.injEq, forall_eq']
    rw [Int.dvd_iff_emod_eq_zero]
    split_ifs <;> simp_all <;> omega

/-- The last check accepts what it accepts entry by entry. -/
theorem validateFrom_eq_ok_iff {intervals : List (Option ℤ)} : ∀ {groupId : ℕ},
    validateFrom blockSize groupId intervals = .ok () ↔
      ∀ interval ∈ intervals, ValidInterval blockSize interval := by
  induction intervals with
  | nil => simp [validateFrom]
  | cons interval intervals ih =>
    intro groupId
    have hhead : validateInterval blockSize groupId interval = .ok () ↔
        ValidInterval blockSize interval :=
      validateInterval_eq_ok_iff
    rw [validateFrom, List.forall_mem_cons, ← hhead]
    cases validateInterval blockSize groupId interval with
    | error e => simp
    | ok u => simp [ih]

theorem validateRetentionIntervals_eq_ok_iff {intervals : List (Option ℤ)} :
    validateRetentionIntervals intervals blockSize = .ok () ↔
      ∀ interval ∈ intervals, ValidInterval blockSize interval :=
  validateFrom_eq_ok_iff

/-! ### The block -/

/-- With an override, a group is exempt, and keeps what the override says. -/
theorem resolve_of_override {intervals : List (Option ℤ)}
    (h : resolveRetentionByGroup groups eagleGroupIds globalInterval (some value) alignmentTokens =
      .ok intervals) :
    minExemptGroupIds groups eagleGroupIds ≠ ∅ ∧ some value ∈ intervals := by
  unfold resolveRetentionByGroup at h
  simp only at h
  split_ifs at h with hexempt
  refine ⟨hexempt, ?_⟩
  rw [← Except.ok.inj h]
  obtain ⟨i, hi⟩ := Finset.nonempty_iff_ne_empty.mpr hexempt
  obtain ⟨n, rfl, g, hg, hdraft⟩ := mem_swaGroupIds.mp (mem_minExemptGroupIds.mp hi).1
  refine List.mem_map.mpr ⟨(g, n), List.mem_zipIdx_iff_getElem?.mpr hg, ?_⟩
  simp [retentionForGroup, hdraft, hi]

/-- Without an override, or with an exempt group, every group gets an interval. -/
theorem resolve_eq_ok (globalInterval alignmentTokens : Option ℤ)
    (h : swaInterval = none ∨ minExemptGroupIds groups eagleGroupIds ≠ ∅) :
    ∃ intervals, resolveRetentionByGroup groups eagleGroupIds globalInterval swaInterval
      alignmentTokens = .ok intervals := by
  unfold resolveRetentionByGroup
  cases swaInterval with
  | none => exact ⟨_, rfl⟩
  | some value =>
    simp only [if_neg (h.resolve_left (Option.some_ne_none value))]
    exact ⟨_, rfl⟩

/-- The block returns what each of its steps lets pass. -/
theorem retentionIntervalByGroup_eq_ok_iff {intervals : List (Option ℤ)} :
    retentionIntervalByGroup raw groups eagleGroupIds globalInterval alignmentTokens blockSize =
        .ok intervals ↔
      ∃ swaInterval, swaRetentionEnv raw blockSize = .ok swaInterval ∧
        resolveRetentionByGroup groups eagleGroupIds globalInterval swaInterval alignmentTokens =
          .ok intervals ∧
        validateRetentionIntervals intervals blockSize = .ok () := by
  rw [retentionIntervalByGroup]
  cases hswa : swaRetentionEnv raw blockSize with
  | error e => simp
  | ok swaInterval =>
    simp only [Except.ok.injEq, exists_eq_left']
    cases resolveRetentionByGroup groups eagleGroupIds globalInterval swaInterval
        alignmentTokens with
    | error e => simp
    | ok resolved =>
      simp only [Except.ok.injEq]
      cases hcheck : validateRetentionIntervals resolved blockSize with
      | error e =>
        simp only [reduceCtorEq, false_iff, not_and]
        rintro rfl
        simp [hcheck]
      | ok u =>
        simp only [Except.ok.injEq]
        refine ⟨?_, And.left⟩
        rintro rfl
        exact ⟨rfl, hcheck⟩

/-- What never returns raises. -/
theorem raises_of_ne_ok {ε α : Type} {x : Except ε α} (h : ∀ a, x ≠ .ok a) : ∃ e, x = .error e := by
  cases x with
  | error e => exact ⟨e, rfl⟩
  | ok a => exact absurd rfl (h a)

/-- **An invalid override raises**, whatever the groups are. -/
theorem raises_of_invalid (hraw : strip raw ≠ [])
    (hinvalid : ¬ ∃ value, Py.int (strip raw) = some value ∧ ValidOverride blockSize value) :
    ∃ e, retentionIntervalByGroup raw groups eagleGroupIds globalInterval
      alignmentTokens blockSize =
      .error e := by
  refine raises_of_ne_ok fun intervals hok => ?_
  obtain ⟨swaInterval, hswa, hresolve, hcheck⟩ := retentionIntervalByGroup_eq_ok_iff.mp hok
  cases swaInterval with
  | none => exact swaRetentionEnv_ne_none hraw hswa
  | some value =>
    obtain ⟨hint, hpos, hdvd, hmax⟩ := of_swaRetentionEnv hswa
    -- The override is read, so the block size is 0 and the last check refuses the entry.
    have hentry := validateRetentionIntervals_eq_ok_iff.mp hcheck _ (resolve_of_override hresolve).2
    refine hinvalid ⟨value, hint, hpos, ?_, hmax⟩
    rcases hentry value rfl with rfl | ⟨-, -, hblock⟩
    · exact dvd_zero _
    · exact hblock

/-- **An override without an exempt group raises.** -/
theorem raises_of_not_exempt (hraw : strip raw ≠ [])
    (hexempt : minExemptGroupIds groups eagleGroupIds = ∅) :
    ∃ e, retentionIntervalByGroup raw groups eagleGroupIds globalInterval
      alignmentTokens blockSize =
      .error e := by
  refine raises_of_ne_ok fun intervals hok => ?_
  obtain ⟨swaInterval, hswa, hresolve, -⟩ := retentionIntervalByGroup_eq_ok_iff.mp hok
  cases swaInterval with
  | none => exact swaRetentionEnv_ne_none hraw hswa
  | some value => exact (resolve_of_override hresolve).1 hexempt

/-- A valid override passes the last check. -/
theorem ValidOverride.validInterval (h : ValidOverride blockSize value) :
    ValidInterval blockSize (some value) := by
  rintro v hv
  obtain rfl := Option.some.inj hv
  rcases h.1.eq_or_lt' with hzero | hpos
  · exact .inl hzero
  · refine .inr ⟨hpos, ?_, h.2.1⟩
    rintro rfl
    exact hpos.ne' (zero_dvd_iff.mp h.2.1)

/-- **What is resolved passes the last check** if the global interval and the override do. -/
theorem validate_resolved {intervals : List (Option ℤ)}
    (h : resolveRetentionByGroup groups eagleGroupIds globalInterval swaInterval alignmentTokens =
      .ok intervals)
    (hglobal : ValidInterval blockSize globalInterval)
    (hswa : ValidInterval blockSize swaInterval) :
    validateRetentionIntervals intervals blockSize = .ok () := by
  refine validateRetentionIntervals_eq_ok_iff.mpr fun interval hmem => ?_
  obtain ⟨i, hi⟩ := List.mem_iff_getElem?.mp hmem
  obtain ⟨g, -, rfl⟩ := getElem?_resolved h hi
  rcases retentionForGroup_cases g globalInterval swaInterval alignmentTokens
    ((i : ℤ) ∈ minExemptGroupIds groups eagleGroupIds) with heq | ⟨value, rfl, heq⟩ | heq
  · rwa [heq]
  · rwa [heq]
  · rw [heq]
    exact fun v hv => .inl (Option.some.inj hv).symm

/-! ### The guard -/

/-- The patched search passes over the group: its visit leaves the hit length as it is. -/
def KvGroup.PassedOver (g : KvGroup) : Prop :=
  ∀ (Block : Type) (s : Search Block) (group : AttentionGroup Block) (idx : ℕ),
    group.spec = g.toSpec →
    (visit s group idx).currHitLength = s.currHitLength ∧
      (visit s group idx).longestHitLength = s.longestHitLength

/-- The search passes over the groups that the retention rule takes for the drafter's. -/
theorem KvGroup.passedOver_of_isDraft {g : KvGroup} (h : g.isDraft = true) : g.PassedOver := by
  intro Block s group idx hspec
  rw [← isDraftSwaSpec_toSpec, ← hspec] at h
  unfold visit
  dsimp only
  rw [if_pos h]
  split_ifs <;> exact ⟨rfl, rfl⟩

/-- **Only groups that the search passes over diverge**: drafter groups, where the coordinator has
singled them out; without an override only to 0, below the alignment. -/
theorem diverges_only_if {intervals : List (Option ℤ)}
    (h : resolveRetentionByGroup groups eagleGroupIds globalInterval swaInterval alignmentTokens =
      .ok intervals) {i : ℕ} {entry : Option ℤ} (hi : intervals[i]? = some entry)
    (hne : entry ≠ globalInterval) :
    ∃ g, groups[i]? = some g ∧ g.isDraft = true ∧ Exempt groups eagleGroupIds ∧ g.PassedOver ∧
      (swaInterval = none → (∃ window ∈ g.inner.slidingWindow, ∃ alignment ∈ alignmentTokens,
        window < alignment) ∧ entry = some 0) := by
  obtain ⟨g, hg, rfl⟩ := getElem?_resolved h hi
  obtain ⟨hdraft, hexempt, hauto⟩ := retentionForGroup_ne hne
  have hmem := of_decide_eq_true hexempt
  exact ⟨g, hg, hdraft, minExemptGroupIds_ne_empty_iff.mp (Finset.ne_empty_of_mem hmem),
    KvGroup.passedOver_of_isDraft hdraft, hauto⟩

/-- **The block accepts** an unset override, and a valid one where the drafter's groups are singled
out, if the global interval is valid. -/
theorem accepts_of_valid (hglobal : ValidInterval blockSize globalInterval)
    (h : strip raw = [] ∨
      (∃ value, Py.int (strip raw) = some value ∧ ValidOverride blockSize value) ∧
      Exempt groups eagleGroupIds) :
    ∃ intervals, retentionIntervalByGroup raw groups eagleGroupIds globalInterval alignmentTokens
        blockSize = .ok intervals ∧
      validateRetentionIntervals intervals blockSize = .ok () := by
  obtain ⟨swaInterval, hswa, hexempt, hvalid⟩ : ∃ swaInterval,
      swaRetentionEnv raw blockSize = .ok swaInterval ∧
      (swaInterval = none ∨ minExemptGroupIds groups eagleGroupIds ≠ ∅) ∧
      ValidInterval blockSize swaInterval := by
    by_cases hraw : strip raw = []
    · exact ⟨none, if_pos hraw, .inl rfl, fun v hv => by cases hv⟩
    · obtain ⟨⟨value, hint, hvalue⟩, hexempt⟩ := h.resolve_left hraw
      exact ⟨some value, swaRetentionEnv_of_valid hraw hint hvalue,
        .inr (minExemptGroupIds_ne_empty_iff.mpr hexempt), hvalue.validInterval⟩
  obtain ⟨intervals, hresolve⟩ := resolve_eq_ok globalInterval alignmentTokens hexempt
  have hcheck := validate_resolved hresolve hglobal hvalid
  exact ⟨intervals, retentionIntervalByGroup_eq_ok_iff.mpr ⟨swaInterval, hswa, hresolve, hcheck⟩,
    hcheck⟩

/-- **Retention is guarded**: an entry diverges only at a drafter's group that the search passes
over; an invalid override raises, whatever the groups are, and so does one without an exempt group;
otherwise every entry passes the last check. -/
theorem retention_guarded (raw : Text) (groups : List KvGroup) (eagleGroupIds : Finset ℤ)
    (globalInterval alignmentTokens : Option ℤ) (blockSize : ℤ) :
    (∀ swaInterval intervals, resolveRetentionByGroup groups eagleGroupIds
      globalInterval swaInterval
        alignmentTokens = .ok intervals →
      intervals.length = groups.length ∧
      ∀ (i : ℕ) entry, intervals[i]? = some entry → entry ≠ globalInterval →
        ∃ g, groups[i]? = some g ∧ g.isDraft = true ∧ Exempt groups eagleGroupIds ∧ g.PassedOver ∧
          (swaInterval = none → (∃ window ∈ g.inner.slidingWindow, ∃ alignment ∈ alignmentTokens,
            window < alignment) ∧ entry = some 0)) ∧
    (strip raw ≠ [] →
      (¬ ∃ value, Py.int (strip raw) = some value ∧ ValidOverride blockSize value) →
      ∃ e, retentionIntervalByGroup raw groups eagleGroupIds globalInterval
        alignmentTokens blockSize =
        .error e) ∧
    (strip raw ≠ [] → ¬ Exempt groups eagleGroupIds →
      ∃ e, retentionIntervalByGroup raw groups eagleGroupIds globalInterval
        alignmentTokens blockSize =
        .error e) ∧
    (ValidInterval blockSize globalInterval →
      (strip raw = [] ∨ (∃ value, Py.int (strip raw) = some value ∧ ValidOverride blockSize value) ∧
        Exempt groups eagleGroupIds) →
      ∃ intervals, retentionIntervalByGroup raw groups eagleGroupIds globalInterval alignmentTokens
          blockSize = .ok intervals ∧
        validateRetentionIntervals intervals blockSize = .ok ()) := by
  refine ⟨fun swaInterval intervals h => ⟨length_resolved h, fun i entry hi hne =>
    diverges_only_if h hi hne⟩, raises_of_invalid, fun hraw hexempt => ?_, accepts_of_valid⟩
  refine raises_of_not_exempt hraw ?_
  by_contra hne
  exact hexempt (minExemptGroupIds_ne_empty_iff.mp hne)

/-- A drafter's group, in a uniform wrapper, next to a dense one. -/
def drafterNextToDense : List KvGroup :=
  [⟨⟨.mlaAttentionSpec, none, some 64⟩, []⟩,
    ⟨⟨.uniformTypeKVCacheSpecs, none, none⟩, [⟨.slidingWindowSpec, some 2048, some 64⟩]⟩]

theorem retention_guarded_drafter :
    ∃ intervals, retentionIntervalByGroup [] drafterNextToDense {1} (some 3584) (some 3584) 3584 =
        .ok intervals ∧
      validateRetentionIntervals intervals 3584 = .ok () := by
  refine (retention_guarded [] drafterNextToDense {1} (some 3584) (some 3584) 3584).2.2.2
    ?_ (.inl rfl)
  rintro value hvalue
  obtain rfl := Option.some.inj hvalue
  exact .inr ⟨by decide, by decide, dvd_rfl⟩

/-- It keeps nothing but the boundaries, and an override between them raises. -/
example :
    retentionIntervalByGroup [] drafterNextToDense {1} (some 3584) (some 3584) 3584 =
        .ok [some 3584, some 0] ∧
      retentionIntervalByGroup ['6', '4'] drafterNextToDense {1} (some 3584) (some 3584) 3584 =
        .error (.notMultiple 64 3584) := by decide

end Glm53Serve.PrefixHit
