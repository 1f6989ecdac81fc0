import Mathlib
import Glm53Serve.Lib.Rank

/-!
# The verdict on a series

`analyze_series` of `scripts/prefill-watchdog.py` compares the median of the last values
of a throughput series with the median of the values before them, and reports a drop by
more than a threshold.

## The model

Values are exact, over an ordered field; one that is missing or not finite is a `Reading`
of its own, so the filter of the code is visible. The window sizes are integers, and a
call with bad arguments is an error, as in the code.

## What is proved

* `analyze_eq` — with valid arguments the verdict depends on the two medians only.
* `analyzeSeries_verdict` — what `degraded` says of the last values, and what the status
  does not depend on: the unit, the order inside a window, and unusable values.
-/

namespace Glm53Serve.Watchdog

open Rank

variable {K : Type*} [Field K] [LinearOrder K]

/-- An element of `values`. -/
inductive Reading (K : Type*) where
  /-- `None`. -/
  | missing
  /-- An infinity or not a number. -/
  | nonFinite
  | finite (x : K)
  deriving DecidableEq

/-- The number that the filter of `analyze_series` keeps, if it keeps any. -/
def Reading.usable : Reading K → Option K
  | .finite x => if 0 < x then some x else none
  | _ => none

/-- The value in another unit. -/
def Reading.scale (r : K) : Reading K → Reading K
  | .finite x => .finite (r * x)
  | v => v

/-- The values that are usable, `clean`. -/
def clean (values : List (Reading K)) : List K := values.filterMap Reading.usable

/-- `clean[-window:]`. -/
def recentValues (window : ℕ) (clean : List K) : List K := clean.drop (clean.length - window)

/-- `clean[pool_start:-window]`. -/
def baselineValues (window baselineWindow : ℕ) (clean : List K) : List K :=
  (clean.take (clean.length - window)).drop (clean.length - window - baselineWindow)

/-- `status` of a `SeriesAnalysis`. -/
inductive Status where
  | ok
  | degraded
  | insufficient
  deriving DecidableEq

/-- `SeriesAnalysis`. -/
structure SeriesAnalysis (K : Type*) where
  status : Status
  n : ℕ
  baseline : Option K
  recent : Option K
  dropFraction : Option K
  cutoff : Option K
  recentBelowCutoff : ℕ
  window : ℤ
  threshold : K
  deriving DecidableEq

/-- The result where there are too few values. -/
def insufficient (n : ℕ) (window : ℤ) (threshold : K) : SeriesAnalysis K where
  status := .insufficient
  n := n
  baseline := none
  recent := none
  dropFraction := none
  cutoff := none
  recentBelowCutoff := 0
  window := window
  threshold := threshold

/-- The result for the medians `baseline` and `recent`. -/
def compared (n : ℕ) (window : ℤ) (threshold : K) (recentValues : List K) (baseline recent : K) :
    SeriesAnalysis K :=
  let cutoff := baseline * (1 - threshold)
  { status := if recent ≤ cutoff then .degraded else .ok
    n := n
    baseline := some baseline
    recent := some recent
    dropFraction := if 0 < baseline then some (1 - recent / baseline) else none
    cutoff := some cutoff
    recentBelowCutoff := recentValues.countP (· ≤ cutoff)
    window := window
    threshold := threshold }

/-- `analyze_series(values, window=…, threshold=…, baseline_window=…)`. -/
def analyzeSeries (values : List (Reading K)) (window : ℤ) (threshold : K) (baselineWindow : ℤ) :
    Except String (SeriesAnalysis K) :=
  if window < 1 then .error "window must be >= 1"
  else if baselineWindow < 1 then .error "baseline_window must be >= 1"
  else if ¬ (0 < threshold ∧ threshold < 1) then .error "threshold must be between 0 and 1"
  else
    let values := clean values
    if values.length < window.toNat + 1 then .ok (insufficient values.length window threshold)
    else
      let recentValues := recentValues window.toNat values
      -- of the two medians only the one of an empty pool would be missing
      match median (baselineValues window.toNat baselineWindow.toNat values),
        median recentValues with
      | some baseline, some recent =>
        .ok (compared values.length window threshold recentValues baseline recent)
      | _, _ => .ok (insufficient values.length window threshold)

/-! ### The two windows -/

section Windows

variable {w b : ℕ} {xs : List K}

omit [Field K] [LinearOrder K] in
theorem length_recentValues (h : w ≤ xs.length) : (recentValues w xs).length = w := by
  rw [recentValues, List.length_drop]
  omega

omit [Field K] [LinearOrder K] in
/-- There is something to compare with as soon as there is one value before the window. -/
theorem baselineValues_ne_nil_iff (hb : 1 ≤ b) :
    baselineValues w b xs ≠ [] ↔ w + 1 ≤ xs.length := by
  rw [← List.length_pos_iff, baselineValues, List.length_drop, List.length_take]
  omega

omit [Field K] [LinearOrder K] in
/-- The windows of a scaled series. -/
theorem recentValues_map (f : K → K) : recentValues w (xs.map f) = (recentValues w xs).map f := by
  rw [recentValues, recentValues, List.length_map, List.map_drop]

omit [Field K] [LinearOrder K] in
theorem baselineValues_map (f : K → K) :
    baselineValues w b (xs.map f) = (baselineValues w b xs).map f := by
  rw [baselineValues, baselineValues, List.length_map, List.map_drop, List.map_take]

end Windows

theorem clean_append (as bs : List (Reading K)) : clean (as ++ bs) = clean as ++ clean bs :=
  List.filterMap_append

/-- Values that are not usable leave nothing. -/
theorem clean_eq_nil {noise : List (Reading K)} (h : ∀ v ∈ noise, v.usable = none) :
    clean noise = [] :=
  List.filterMap_eq_nil_iff.2 h

/-! ### The verdict -/

/-- The verdict on two medians, where there are any. -/
def verdict (threshold : K) (baseline recent : Option K) : Status :=
  match baseline, recent with
  | some baseline, some recent => if recent ≤ baseline * (1 - threshold) then .degraded else .ok
  | _, _ => .insufficient

section Analysis

variable {window baselineWindow : ℤ} {threshold : K}

/-- With valid arguments the status is the verdict on the medians of the two windows. -/
theorem analyze_eq (hw : 1 ≤ window) (hb : 1 ≤ baselineWindow) (h0 : 0 < threshold)
    (h1 : threshold < 1) (values : List (Reading K)) :
    ∃ a, analyzeSeries values window threshold baselineWindow = .ok a ∧
      a.status = verdict threshold
        (median (baselineValues window.toNat baselineWindow.toNat (clean values)))
        (median (recentValues window.toNat (clean values))) ∧
      (a.status ≠ .insufficient →
        a.baseline = median (baselineValues window.toNat baselineWindow.toNat (clean values))) := by
  have hb' : 1 ≤ baselineWindow.toNat := by omega
  rw [analyzeSeries, if_neg (not_lt.2 hw), if_neg (not_lt.2 hb), if_neg (not_not.2 ⟨h0, h1⟩)]
  by_cases hlen : (clean values).length < window.toNat + 1
  · have hnil : baselineValues window.toNat baselineWindow.toNat (clean values) = [] := by
      by_contra hne
      have := (baselineValues_ne_nil_iff hb').1 hne
      omega
    refine ⟨_, if_pos hlen, ?_, fun h => absurd rfl h⟩
    rw [hnil, median_nil]
    rfl
  · have hpool : baselineValues window.toNat baselineWindow.toNat (clean values) ≠ [] :=
      (baselineValues_ne_nil_iff hb').2 (not_lt.1 hlen)
    have hrecent : recentValues window.toNat (clean values) ≠ [] := by
      rw [← List.length_pos_iff, length_recentValues (by omega)]
      omega
    obtain ⟨baseline, hbase⟩ := exists_median hpool
    obtain ⟨recent, hrec⟩ := exists_median hrecent
    refine ⟨compared (clean values).length window threshold
      (recentValues window.toNat (clean values)) baseline recent, ?_, ?_, ?_⟩
    · simp only [hlen, if_false, hbase, hrec]
    · rw [hbase, hrec]
      rfl
    · exact fun _ => hbase.symm

variable [IsStrictOrderedRing K]

/-- A degraded verdict: half of the recent values, rounded up, are at most the cutoff. -/
theorem half_le_of_degraded {pool recent : List K}
    (h : verdict threshold (median pool) (median recent) = .degraded) :
    ∃ baseline ∈ median pool,
      (recent.length + 1) / 2 ≤ recent.countP (· ≤ baseline * (1 - threshold)) := by
  cases hp : median pool with
  | none => simp [verdict, hp] at h
  | some baseline =>
    cases hr : median recent with
    | none => simp [verdict, hp, hr] at h
    | some m =>
      refine ⟨baseline, rfl, half_le_countP_of_median_le hr ?_⟩
      by_contra hm
      simp [verdict, hp, hr, hm] at h

/-- More than half of the recent values at most the cutoff: the verdict is degraded. -/
theorem degraded_of_half_lt {pool recent : List K} {baseline : K} (hp : median pool = some baseline)
    (h : recent.length < 2 * recent.countP (· ≤ baseline * (1 - threshold))) :
    verdict threshold (median pool) (median recent) = .degraded := by
  have hne : recent ≠ [] := by
    rintro rfl
    simp at h
  obtain ⟨m, hm⟩ := exists_median hne
  rw [hp, hm, verdict, if_pos (median_le_of_half_lt hm h)]

/-- The verdict does not depend on the unit. -/
theorem verdict_scale {r : K} (hr : 0 < r) (baseline recent : Option K) :
    verdict threshold (baseline.map (r * ·)) (recent.map (r * ·)) =
      verdict threshold baseline recent := by
  cases baseline <;> cases recent <;> simp only [verdict, Option.map_none, Option.map_some]
  simp only [mul_assoc, mul_le_mul_iff_of_pos_left hr]

theorem clean_scale {r : K} (hr : 0 < r) (values : List (Reading K)) :
    clean (values.map (Reading.scale r)) = (clean values).map (r * ·) := by
  have h : ∀ v : Reading K, (v.scale r).usable = v.usable.map (r * ·) := by
    intro v
    cases v with
    | missing => rfl
    | nonFinite => rfl
    | finite x =>
      by_cases hx : 0 < x
      · simp [Reading.scale, Reading.usable, hx, mul_pos hr hx]
      · have hrx : ¬ 0 < r * x := fun h => hx ((mul_pos_iff_of_pos_left hr).1 h)
        simp [Reading.scale, Reading.usable, hx, hrx]
  rw [clean, List.filterMap_map, clean, List.map_filterMap]
  exact congrArg (List.filterMap · values) (funext h)

/-- **What a verdict means.** With valid arguments: if the status is `degraded`, half of the
last values, rounded up, are at most the cutoff; it is if more than half are. It stays the
same in another unit, when values move inside the recent window and inside the baseline
pool, and when unusable values are inserted. -/
theorem analyzeSeries_verdict (values : List (Reading K)) (hw : 1 ≤ window)
    (hb : 1 ≤ baselineWindow) (h0 : 0 < threshold) (h1 : threshold < 1) :
    ∃ a, analyzeSeries values window threshold baselineWindow = .ok a ∧
      (a.status = .degraded →
        ∃ baseline ∈ a.baseline, (window.toNat + 1) / 2 ≤
          (recentValues window.toNat (clean values)).countP (· ≤ baseline * (1 - threshold))) ∧
      (∀ baseline ∈ median (baselineValues window.toNat baselineWindow.toNat (clean values)),
        window.toNat <
          2 * (recentValues window.toNat (clean values)).countP (· ≤ baseline * (1 - threshold)) →
        a.status = .degraded) ∧
      (∀ r : K, 0 < r →
        (analyzeSeries (values.map (Reading.scale r)) window threshold
          baselineWindow).map (·.status) = .ok a.status) ∧
      (∀ values' : List (Reading K),
        (recentValues window.toNat (clean values')).Perm
          (recentValues window.toNat (clean values)) →
        (baselineValues window.toNat baselineWindow.toNat (clean values')).Perm
          (baselineValues window.toNat baselineWindow.toNat (clean values)) →
        (analyzeSeries values' window threshold baselineWindow).map (·.status) = .ok a.status) ∧
      ∀ as noise bs : List (Reading K), values = as ++ bs → (∀ v ∈ noise, v.usable = none) →
        (analyzeSeries (as ++ noise ++ bs) window threshold baselineWindow).map (·.status) =
          .ok a.status := by
  obtain ⟨a, ha, hstatus, hbase⟩ := analyze_eq hw hb h0 h1 values
  -- the status of any series is the verdict on its two medians
  have hany : ∀ values' : List (Reading K),
      verdict threshold
          (median (baselineValues window.toNat baselineWindow.toNat (clean values')))
          (median (recentValues window.toNat (clean values'))) = a.status →
        (analyzeSeries values' window threshold baselineWindow).map (·.status) = .ok a.status := by
    intro values' h
    obtain ⟨a', ha', hstatus', -⟩ := analyze_eq hw hb h0 h1 values'
    rw [ha', Except.map, hstatus', h]
  have hlen : ∀ {baseline},
      baseline ∈ median (baselineValues window.toNat baselineWindow.toNat (clean values)) →
      (recentValues window.toNat (clean values)).length = window.toNat := by
    intro baseline h
    have hpool := (baselineValues_ne_nil_iff (by omega)).1 (ne_nil_of_median h)
    exact length_recentValues (by omega)
  refine ⟨a, ha, fun hdeg => ?_, fun baseline hmem hhalf => ?_, fun r hr => hany _ ?_,
    fun values' hrecent hpool => hany _ ?_, fun as noise bs hvalues hnoise => hany _ ?_⟩
  · obtain ⟨baseline, hmem, hhalf⟩ := half_le_of_degraded (hstatus.symm.trans hdeg)
    refine ⟨baseline, ?_, by rwa [hlen hmem] at hhalf⟩
    rw [hbase (by rw [hdeg]; decide)]
    exact hmem
  · rw [hstatus]
    exact degraded_of_half_lt hmem (by rwa [hlen hmem])
  · rw [clean_scale hr, baselineValues_map, recentValues_map, median_map_mul hr,
      median_map_mul hr, verdict_scale hr, hstatus]
  · rw [median_perm hrecent, median_perm hpool, hstatus]
  · rw [clean_append, clean_append, clean_eq_nil hnoise, List.append_nil, ← clean_append,
      ← hvalues, hstatus]

/-- A drop: four old values, a gap, and two recent ones. -/
theorem analyzeSeries_verdict_drop :
    ∃ a, analyzeSeries [.finite (1000 : ℚ), .finite 1000, .missing, .finite 1000, .finite 200,
        .nonFinite, .finite 200] 2 (3 / 10) 8 = .ok a ∧ a.status = .degraded := by
  obtain ⟨a, ha, -, hdeg, -⟩ := analyzeSeries_verdict
    [.finite (1000 : ℚ), .finite 1000, .missing, .finite 1000, .finite 200, .nonFinite, .finite 200]
    (by decide : (1 : ℤ) ≤ 2) (by decide : (1 : ℤ) ≤ 8) (by norm_num : (0 : ℚ) < 3 / 10)
      (by norm_num)
  exact ⟨a, ha, hdeg 1000 (by decide +kernel) (by decide +kernel)⟩

end Analysis

end Glm53Serve.Watchdog
