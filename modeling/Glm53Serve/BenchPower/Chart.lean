import Glm53Serve.BenchPower.Phase
import Glm53Serve.Lib.HalfEven
import Glm53Serve.Lib.NiceNumbers

/-!
# The chart

`render_svg` of `tools/bench-power.py` draws the power of the GPUs over time: the bands of the idle
phases, a grid with round numbers, the markers, the mean of the busiest phase, and a line for the
total and each GPU, of at most 1,200 points.

## The model

The chart is the list of its shapes with the coordinates as they are printed, to one decimal; texts
and colours are left out but for the numbers at the ticks. Numbers are exact.

## What is proved

* `isLeast_niceCeiling`, `isLeast_niceStep` — the round numbers are the next ones.
* `bands_tile` — the bands of the phases follow one another to the end of the chart.
* `chart_fits` — what is drawn of the data lies in the plot, and the axis ends on a tick above the
  data.
-/

namespace Glm53Serve.BenchPower

open NiceNumbers

/-! ### Round numbers -/

/-- The factors of `_nice_step`; behind the last one the loop falls through to ten. -/
def stepFactors : List ℚ := [1, 2, 5 / 2, 5, 10]

/-- `_nice_step`. -/
def niceStep (span : ℚ) (target : ℕ) : ℚ := if span ≤ 0 then
    1 else roundUp 10 stepFactors (span / target)

/-- The factors of `_nice_ceiling`. -/
def ceilingFactors : List ℚ := [1, 6 / 5, 3 / 2, 2, 5 / 2, 3, 4, 5, 6, 8, 10]

/-- `_nice_ceiling`. -/
def niceCeiling (value : ℚ) : ℚ := if value ≤ 0 then 1 else roundUp 10 ceilingFactors value

/-! ### The points of a line -/

/-- A point in time and power. -/
abbrev Point := ℚ × ℚ

/-- The mean of some points. -/
def meanPoint (chunk : List Point) : Point :=
  ((chunk.map Prod.fst).sum / chunk.length, (chunk.map Prod.snd).sum / chunk.length)

/-- `_decimate`. -/
def decimate (points : List Point) (limit : ℕ) : List Point :=
  if points.length ≤ limit then points
  else
    let bucket := ⌈(points.length : ℚ) / limit⌉.toNat
    (List.range ⌈(points.length : ℚ) / bucket⌉.toNat).map fun i =>
      meanPoint ((points.drop (i * bucket)).take bucket)

/-! ### The data -/

/-- A sample record, with its phase. -/
structure ChartSample extends Sample where
  phase : String

/-- `gpu_keys`. -/
def gpuKeys (samples : List ChartSample) : List String :=
  (samples.flatMap fun s => (s.devices.filter (·.group = "gpu")).map (·.key)).eraseDups.mergeSort
    (· ≤ ·)

/-- `series[key]`. -/
def series (samples : List ChartSample) (key : String) : List Point :=
  samples.flatMap fun s =>
    s.devices.filterMap fun d => if d.group = "gpu" ∧ d.key = key then d.w.map (s.t, ·) else none

/-- The samples with some power. -/
def powered (samples : List ChartSample) : List ChartSample :=
  samples.filter (gpuWatts ·.toSample ≠ [])

/-- `total_points`. -/
def totalPoints (samples : List ChartSample) : List Point :=
  (powered samples).map fun s => (s.t, (gpuWatts s.toSample).sum)

/-- `phase_sums`, in the order of insertion. -/
def phaseSums (samples : List ChartSample) : List (String × List ℚ) :=
  ((powered samples).map (·.phase)).eraseDups.map fun phase =>
    (phase, ((powered samples).filter (·.phase = phase)).map fun s => (gpuWatts s.toSample).sum)

/-- The busier of two phases, the earlier one where they are equal. -/
def busier (best : Option (String × ℚ)) (p : String × List ℚ) : Option (String × ℚ) :=
  match best with
  | none => some (p.1, p.2.sum / p.2.length)
  | some b => if b.2 < p.2.sum / p.2.length then some (p.1, p.2.sum / p.2.length) else some b

/-- The busiest phase and its mean. -/
def busiest (sums : List (String × List ℚ)) : Option (String × ℚ) := sums.foldl busier none

/-- `max(values, default=0.0)`. -/
def maxOr (values : List ℚ) : ℚ := values.max?.getD 0

/-- `t_max`. -/
def tMax (samples : List ChartSample) : ℚ :=
  let t := maxOr ((totalPoints samples).map Prod.fst)
  if t = 0 then 1 else t

/-- `w_max`. -/
def wMax (samples : List ChartSample) : ℚ :=
  (gpuKeys samples).foldl (fun w key => max w (maxOr ((series samples key).map Prod.snd)))
    (maxOr ((totalPoints samples).map Prod.snd))

/-! ### The scales -/

/-- `y_top` before it is snapped. -/
def yCeiling (samples : List ChartSample) : ℚ := niceCeiling (max (wMax samples * (106 / 100)) 1)

/-- `y_step`. -/
def yStep (samples : List ChartSample) : ℚ := niceStep (yCeiling samples) 5

/-- `1e-9`. -/
def epsilon : ℚ := 1 / 10 ^ 9

/-- `y_top`. -/
def yTop (samples : List ChartSample) : ℚ :=
  ⌈(yCeiling samples - epsilon) / yStep samples⌉ * yStep samples

/-- `x_step`. -/
def xStep (samples : List ChartSample) : ℚ := niceStep (tMax samples) 8

/-- The loop over the ticks, which does not end for a step that is not positive. -/
def ticksFrom (step top tick : ℚ) : List ℚ :=
  if _h : 0 < step ∧ tick ≤ top + epsilon then tick :: ticksFrom step top (tick + step) else []
termination_by (⌊(top + epsilon - tick) / step⌋ + 1).toNat
decreasing_by
  have hq : (top + epsilon - (tick + step)) / step = (top + epsilon - tick) / step - 1 := by
    field_simp [_h.1.ne']
    ring
  have hnonneg : 0 ≤ ⌊(top + epsilon - tick) / step⌋ :=
    Int.floor_nonneg.mpr (div_nonneg (by linarith [_h.2]) _h.1.le)
  rw [hq, Int.floor_sub_one]
  omega

def plotLeft : ℚ := 62
def plotRight : ℚ := 1040 - 18
def plotTop : ℚ := 46
def plotBottom : ℚ := 46 + (330 - 46 - 42)

/-- `x_of`. -/
def xOf (tMax t : ℚ) : ℚ := plotLeft + t / tMax * (plotRight - plotLeft)

/-- `y_of`. -/
def yOf (yTop w : ℚ) : ℚ := plotBottom - w / yTop * (plotBottom - plotTop)

/-- `:.1f`. -/
def printed (x : ℚ) : ℚ := HalfEven.roundTo 1 x

/-! ### The chart -/

/-- The runs of one phase: where each begins and where the next one does, the last at the end of the
chart. -/
def bandsFrom (phase : String) (start : ℚ) : List ChartSample → ℚ → List (String × ℚ × ℚ)
  | [], stop => [(phase, start, stop)]
  | s :: ss, stop =>
    if s.phase = phase then bandsFrom phase start ss stop
    else (phase, start, s.t) :: bandsFrom s.phase s.t ss stop

/-- `bands`. -/
def bands : List ChartSample → ℚ → List (String × ℚ × ℚ)
  | [], _ => []
  | s :: ss, stop => bandsFrom s.phase s.t ss stop

/-- What is drawn inside the plot. -/
inductive Shape where
  | rect (x y width height : ℚ)
  | line (x₁ y₁ x₂ y₂ : ℚ)
  | polyline (points : List Point)
  deriving DecidableEq

/-- The idle bands. -/
def bandShapes (samples : List ChartSample) : List Shape :=
  ((bands samples (tMax samples)).filter fun b => "idle".isPrefixOf b.1).map fun b =>
    let left := xOf (tMax samples) b.2.1
    .rect (printed left) plotTop (printed (max (xOf (tMax samples) b.2.2 - left) 1))
      (plotBottom - plotTop)

def yTicks (samples : List ChartSample) : List ℚ := ticksFrom (yStep samples) (yTop samples) 0

def xTicks (samples : List ChartSample) : List ℚ := ticksFrom (xStep samples) (tMax samples) 0

def horizontal (samples : List ChartSample) (w : ℚ) : Shape :=
  .line plotLeft (printed (yOf (yTop samples) w)) plotRight (printed (yOf (yTop samples) w))

def vertical (samples : List ChartSample) (t : ℚ) : Shape :=
  .line (printed (xOf (tMax samples) t)) plotTop (printed (xOf (tMax samples) t)) plotBottom

/-- `_polyline`. -/
def polyline (samples : List ChartSample) (points : List Point) : Shape :=
  .polyline ((decimate points 1200).map fun p =>
    (printed (xOf (tMax samples) p.1), printed (yOf (yTop samples) p.2)))

/-- The line of the mean of the busiest phase. -/
def meanShapes (samples : List ChartSample) : List Shape :=
  (busiest (phaseSums samples)).toList.map fun b => horizontal samples b.2

/-- The lines of the GPUs, where there are several, and of their total. -/
def dataShapes (samples : List ChartSample) : List Shape :=
  (if 1 < (gpuKeys samples).length then
      (((gpuKeys samples).map (series samples)).filter (2 ≤ ·.length)).map (polyline samples)
    else []) ++
    if 2 ≤ (totalPoints samples).length then [polyline samples (totalPoints samples)] else []

/-- `render_svg`: the shapes inside the plot, or nothing where there is nothing to plot. -/
def renderSvg (samples : List ChartSample) (markers : List ℚ) : Option (List Shape) :=
  if samples.length < 2 ∨ totalPoints samples = [] then none
  else
    some (bandShapes samples ++ (yTicks samples).map (horizontal samples) ++
      (xTicks samples).map (vertical samples)
      ++ (markers.take 40).map (vertical samples) ++ meanShapes samples ++ dataShapes samples)

/-! ### The round numbers are the next ones -/

theorem factors_step : Factors 10 stepFactors where
  one := rfl
  base := by norm_num [stepFactors]
  sorted := by norm_num [stepFactors]
  le := by norm_num [stepFactors]

theorem factors_ceiling : Factors 10 ceilingFactors where
  one := rfl
  base := by norm_num [ceilingFactors]
  sorted := by norm_num [ceilingFactors]
  le := by norm_num [ceilingFactors]

/-- `_nice_ceiling` is the smallest of its numbers at or above the value. -/
theorem isLeast_niceCeiling {value : ℚ} (h : 0 < value) :
    IsLeast {y | Nice 10 ceilingFactors y ∧ value ≤ y} (niceCeiling value) := by
  rw [niceCeiling, if_neg (not_le.mpr h)]
  exact isLeast_roundUp (by norm_num) factors_ceiling h

theorem isLeast_niceStep {span : ℚ} {target : ℕ} (h : 0 < span) (ht : 0 < target) :
    IsLeast {y | Nice 10 stepFactors y ∧ span / target ≤ y} (niceStep span target) := by
  rw [niceStep, if_neg (not_le.mpr h)]
  exact isLeast_roundUp (by norm_num) factors_step (div_pos h (by exact_mod_cast ht))

/-- There is a step below the double of any number. -/
theorem exists_step_lt {x : ℚ} (h : 0 < x) : ∃ y, Nice 10 stepFactors y ∧ x ≤ y ∧ y < 2 * x := by
  obtain ⟨hlow, hhigh⟩ := log_bounds (b := 10) (by norm_num) h
  set p := ((10 : ℕ) : ℚ) ^ Int.log 10 x with hp
  have hfactor (f : ℚ) (hf : f ∈ stepFactors) (hx : x ≤ f * p) (hlt : f * p < 2 * x) :
      ∃ y, Nice 10 stepFactors y ∧ x ≤ y ∧ y < 2 * x := ⟨f * p, ⟨f, hf, _, rfl⟩, hx, hlt⟩
  push_cast at hhigh
  rcases hlow.eq_or_lt with heq | h₁
  · exact hfactor 1 (by simp [stepFactors]) (by linarith) (by linarith)
  · by_cases h₂ : x ≤ 2 * p
    · exact hfactor 2 (by simp [stepFactors]) h₂ (by linarith)
    · by_cases h₃ : x ≤ 5 / 2 * p
      · exact hfactor (5 / 2) (by simp [stepFactors]) h₃ (by linarith)
      · by_cases h₄ : x ≤ 5 * p
        · exact hfactor 5 (by simp [stepFactors]) h₄ (by linarith)
        · exact hfactor 10 (by simp [stepFactors]) (by linarith) (by linarith)

/-- A step divides the span into at most `target` parts, and into more than half as many. -/
theorem niceStep_bounds {span : ℚ} {target : ℕ} (h : 0 < span) (ht : 0 < target) :
    0 < niceStep span target ∧ span / target ≤ niceStep span target ∧
      niceStep span target < 2 * (span / target) := by
  have hleast := isLeast_niceStep h ht
  have hpos : 0 < span / target := div_pos h (by exact_mod_cast ht)
  obtain ⟨y, hy, hxy, hlt⟩ := exists_step_lt hpos
  exact ⟨hpos.trans_le hleast.1.2, hleast.1.2, (hleast.2 ⟨hy, hxy⟩).trans_lt hlt⟩

/-! ### The ticks -/

theorem epsilon_pos : 0 < epsilon := by norm_num [epsilon]

theorem ticksFrom_eq {step : ℚ} (hstep : 0 < step) (top : ℚ) (n : ℕ) :
    ∀ tick, (⌊(top + epsilon - tick) / step⌋ + 1).toNat = n →
      ticksFrom step top tick = (List.range n).map fun k : ℕ => tick + k * step := by
  induction n with
  | zero =>
    intro tick hn
    have hneg : ⌊(top + epsilon - tick) / step⌋ < 0 := by omega
    have hlt : top + epsilon < tick := by
      have hquot := Int.floor_lt.mp hneg
      rw [Int.cast_zero, div_neg_iff] at hquot
      rcases hquot with h | h
      · linarith
      · linarith
    rw [ticksFrom, dif_neg (fun h => absurd h.2 (not_le.mpr hlt))]
    rfl
  | succ n ih =>
    intro tick hn
    have hle : tick ≤ top + epsilon := by
      have hnonneg : 0 ≤ (top + epsilon - tick) / step := Int.floor_nonneg.mp (by omega)
      have hsub := (div_nonneg_iff.mp hnonneg).resolve_right fun h => absurd h.2 (not_le.mpr hstep)
      linarith
    have hnext : (top + epsilon - (tick + step)) / step = (top + epsilon - tick) / step - 1 := by
      field_simp
      ring
    rw [ticksFrom, dif_pos ⟨hstep, hle⟩, ih (tick + step) (by rw [hnext, Int.floor_sub_one]; omega),
      List.range_succ_eq_map, List.map_cons, List.map_map]
    simp only [Nat.cast_zero, zero_mul, add_zero]
    congr 1
    refine List.map_congr_left fun k _ => ?_
    simp only [Function.comp, Nat.succ_eq_add_one]
    push_cast
    ring

/-- The ticks from zero, where the last one is known. -/
theorem ticksFrom_zero {step top : ℚ} (hstep : 0 < step) {n : ℕ} (hlow : n * step ≤ top + epsilon)
    (hhigh : top + epsilon < (n + 1) * step) :
    ticksFrom step top 0 = (List.range (n + 1)).map fun k : ℕ => k * step := by
  have hfloor : ⌊(top + epsilon - 0) / step⌋ = n := by
    rw [Int.floor_eq_iff, sub_zero, le_div_iff₀ hstep, div_lt_iff₀ hstep]
    push_cast
    exact ⟨hlow, hhigh⟩
  rw [ticksFrom_eq hstep top (n + 1) 0 (by rw [hfloor]; omega)]
  simp only [zero_add]

/-! ### The axes -/

variable (samples : List ChartSample)

theorem yCeiling_spec : wMax samples * (106 / 100) ≤ yCeiling samples ∧ 1 ≤ yCeiling samples := by
  have hpos : 0 < max (wMax samples * (106 / 100)) 1 := lt_max_of_lt_right one_pos
  have hceiling := (isLeast_niceCeiling hpos).1.2
  exact ⟨(le_max_left _ _).trans hceiling, (le_max_right _ _).trans hceiling⟩

theorem yStep_spec : 0 < yStep samples ∧ yCeiling samples / 5 ≤ yStep samples ∧
    yStep samples < 2 * (yCeiling samples / 5) :=
  niceStep_bounds (by linarith [(yCeiling_spec samples).2]) (by norm_num)

/-- The top of the axis is a number of steps that is at least the peak. -/
theorem yTop_spec : ∃ n : ℕ, 3 ≤ n ∧ n ≤ 5 ∧ n * yStep samples = yTop samples ∧
    wMax samples ≤ yTop samples := by
  obtain ⟨hpeak, hone⟩ := yCeiling_spec samples
  obtain ⟨hpos, hlow, hhigh⟩ := yStep_spec samples
  have heps : epsilon = 1 / 10 ^ 9 := rfl
  set k := ⌈(yCeiling samples - epsilon) / yStep samples⌉ with hk
  have hle : (yCeiling samples - epsilon) / yStep samples ≤ k := Int.le_ceil _
  rw [div_le_iff₀ hpos] at hle
  have hk₅ : k ≤ 5 := by
    rw [hk, Int.ceil_le, div_le_iff₀ hpos]
    push_cast
    linarith [epsilon_pos]
  have hk₃ : 3 ≤ k := by
    have htwo : ((2 : ℤ) : ℚ) < (yCeiling samples - epsilon) / yStep samples := by
      rw [lt_div_iff₀ hpos, heps]
      push_cast
      linarith
    have hlt := Int.lt_ceil.mpr htwo
    omega
  have hcast : ((k.toNat : ℕ) : ℚ) = k := by exact_mod_cast Int.toNat_of_nonneg (by omega)
  refine ⟨k.toNat, by omega, by omega, by rw [hcast]; rfl, ?_⟩
  have htop : yTop samples = k * yStep samples := rfl
  rw [htop]
  by_cases hsmall : wMax samples ≤ 1 / 2
  · linarith [show epsilon ≤ 1 / 2 by norm_num [epsilon]]
  · have hsix : epsilon ≤ wMax samples * (6 / 100) := by
      rw [heps]
      linarith
    linarith

theorem yTicks_eq : ∃ n : ℕ, 3 ≤ n ∧ n ≤ 5 ∧
    yTicks samples = (List.range (n + 1)).map (fun k : ℕ => k * yStep samples) ∧
    n * yStep samples = yTop samples ∧ wMax samples ≤ yTop samples := by
  obtain ⟨n, hlow, hhigh, htop, hpeak⟩ := yTop_spec samples
  obtain ⟨hpos, hstep, -⟩ := yStep_spec samples
  refine ⟨n, hlow, hhigh, ?_, htop, hpeak⟩
  have hsmall : epsilon < yStep samples := by
    have heps : epsilon < 1 / 5 := by norm_num [epsilon]
    linarith [(yCeiling_spec samples).2]
  exact ticksFrom_zero hpos (by linarith [epsilon_pos]) (by linarith)

/-- The steps of the time axis up to its end. -/
theorem xTicks_eq (h : 0 < tMax samples) : ∃ n : ℕ, 4 ≤ n ∧ (8 * epsilon < tMax samples → n ≤ 8) ∧
    xTicks samples = (List.range (n + 1)).map (fun k : ℕ => k * xStep samples) ∧
    n * xStep samples ≤ tMax samples + epsilon ∧
        tMax samples + epsilon < (n + 1) * xStep samples := by
  obtain ⟨hpos, hlow, hhigh⟩ : 0 < xStep samples ∧ tMax samples / (8 : ℕ) ≤ xStep samples ∧
      xStep samples < 2 * (tMax samples / (8 : ℕ)) := niceStep_bounds h (by norm_num)
  push_cast at hlow hhigh
  set k := ⌊(tMax samples + epsilon) / xStep samples⌋ with hk
  have hle : k * xStep samples ≤ tMax samples + epsilon := by
    rw [← le_div_iff₀ hpos]
    exact Int.floor_le _
  have hlt : tMax samples + epsilon < (k + 1) * xStep samples := by
    rw [← div_lt_iff₀ hpos]
    exact Int.lt_floor_add_one _
  have hk₄ : 4 ≤ k := by
    rw [hk, Int.le_floor, le_div_iff₀ hpos]
    push_cast
    linarith [epsilon_pos]
  have hk₈ : 8 * epsilon < tMax samples → k ≤ 8 := by
    intro heps
    have hnine : k < 9 := by
      rw [hk, Int.floor_lt, div_lt_iff₀ hpos]
      push_cast
      linarith
    omega
  have hcast : ((k.toNat : ℕ) : ℚ) = k := by exact_mod_cast Int.toNat_of_nonneg (by omega)
  rw [← hcast] at hle hlt
  exact ⟨k.toNat, by omega, fun heps => by have := hk₈ heps; omega, ticksFrom_zero hpos hle hlt,
    hle, hlt⟩

/-! ### The extent of the data -/

theorem le_maxOr {values : List ℚ} {x : ℚ} (h : x ∈ values) : x ≤ maxOr values := by
  unfold maxOr
  cases hmax : values.max? with
  | none => exact absurd h (by simp [List.max?_eq_none_iff.mp hmax])
  | some m => exact (List.max?_eq_some_iff.mp hmax).2 x h

theorem le_foldl_max {κ : Type*} (f : κ → ℚ) (keys : List κ) :
    ∀ w, w ≤ keys.foldl (fun w k => max w (f k)) w ∧
      ∀ k ∈ keys, f k ≤ keys.foldl (fun w k => max w (f k)) w := by
  induction keys with
  | nil => exact fun w => ⟨le_rfl, by simp⟩
  | cons k keys ih =>
    intro w
    obtain ⟨hinit, hkeys⟩ := ih (max w (f k))
    refine ⟨(le_max_left _ _).trans hinit, fun k' hk' => ?_⟩
    rcases List.mem_cons.mp hk' with rfl | hk'
    · exact (le_max_right _ _).trans hinit
    · exact hkeys k' hk'

/-- A point of a line comes from a sample with power. -/
theorem mem_series {key : String} {p : Point} (h : p ∈ series samples key) :
    ∃ s ∈ powered samples, p.1 = s.t ∧ p.2 ∈ gpuWatts s.toSample := by
  obtain ⟨s, hs, hp⟩ := List.mem_flatMap.mp h
  obtain ⟨d, hd, hw⟩ := List.mem_filterMap.mp hp
  split_ifs at hw with hg
  obtain ⟨w, hdw, rfl⟩ := Option.map_eq_some_iff.mp hw
  have hmem : w ∈ gpuWatts s.toSample := List.mem_filterMap.mpr ⟨d, hd, by rw [if_pos hg.1, hdw]⟩
  exact ⟨s, List.mem_filter.mpr ⟨hs, by simpa using List.ne_nil_of_mem hmem⟩, rfl, hmem⟩

/-! ### Decimating -/

/-- The mean of some numbers is between their bounds. -/
theorem mean_bounds {l : List ℚ} (hne : l ≠ []) {a b : ℚ} (h : ∀ x ∈ l, a ≤ x ∧ x ≤ b) :
    a ≤ l.sum / l.length ∧ l.sum / l.length ≤ b := by
  have hlength : (0 : ℚ) < l.length := by exact_mod_cast List.length_pos_iff.mpr hne
  have hlow := List.card_nsmul_le_sum l a fun x hx => (h x hx).1
  have hhigh := List.sum_le_card_nsmul l b fun x hx => (h x hx).2
  rw [nsmul_eq_mul] at hlow hhigh
  exact ⟨by rw [le_div_iff₀ hlength]; linarith, by rw [div_le_iff₀ hlength]; linarith⟩

/-- The points are in a box. -/
def Boxed (points : List Point) (t₀ t₁ w₀ w₁ : ℚ) : Prop :=
  ∀ p ∈ points, t₀ ≤ p.1 ∧ p.1 ≤ t₁ ∧ w₀ ≤ p.2 ∧ p.2 ≤ w₁

theorem meanPoint_boxed {chunk : List Point} (hne : chunk ≠ []) {t₀ t₁ w₀ w₁ : ℚ}
    (h : Boxed chunk t₀ t₁ w₀ w₁) :
    t₀ ≤ (meanPoint chunk).1 ∧ (meanPoint chunk).1 ≤ t₁ ∧ w₀ ≤ (meanPoint chunk).2 ∧
      (meanPoint chunk).2 ≤ w₁ := by
  have ht := mean_bounds (l := chunk.map Prod.fst) (by simpa using hne) (a := t₀)
      (b := t₁) fun x hx => by
    obtain ⟨p, hp, rfl⟩ := List.mem_map.mp hx
    exact ⟨(h p hp).1, (h p hp).2.1⟩
  have hw := mean_bounds (l := chunk.map Prod.snd) (by simpa using hne) (a := w₀)
      (b := w₁) fun x hx => by
    obtain ⟨p, hp, rfl⟩ := List.mem_map.mp hx
    exact (h p hp).2.2
  rw [List.length_map] at ht hw
  exact ⟨ht.1, ht.2, hw.1, hw.2⟩

section Buckets

variable {points : List Point} {limit : ℕ}

theorem bucket_spec (hlimit : 0 < limit) (hlt : limit < points.length) :
    0 < ⌈(points.length : ℚ) / limit⌉.toNat ∧
    (points.length : ℚ) ≤ limit * ⌈(points.length : ℚ) / limit⌉.toNat := by
  have hl : (0 : ℚ) < limit := by exact_mod_cast hlimit
  have hpos : (0 : ℚ) < points.length / limit := div_pos (by exact_mod_cast hlimit.trans hlt) hl
  have hceil : 0 < ⌈(points.length : ℚ) / limit⌉ := Int.ceil_pos.mpr hpos
  have hcast : ((⌈(points.length : ℚ) / limit⌉.toNat : ℕ) : ℚ) = ⌈(points.length : ℚ) / limit⌉ := by
    exact_mod_cast Int.toNat_of_nonneg hceil.le
  refine ⟨by omega, ?_⟩
  rw [hcast, ← div_le_iff₀' hl]
  exact Int.le_ceil _

/-- A line has no more points than the limit. -/
theorem length_decimate (hlimit : 0 < limit) : (decimate points limit).length ≤ limit := by
  unfold decimate
  by_cases hle : points.length ≤ limit
  · rwa [if_pos hle]
  · obtain ⟨hpos, hlength⟩ := bucket_spec hlimit (not_le.mp hle)
    rw [if_neg hle]
    dsimp only
    rw [List.length_map, List.length_range, Int.toNat_le, Int.ceil_le,
      div_le_iff₀ (by exact_mod_cast hpos)]
    exact_mod_cast hlength

/-- Decimating keeps the points in their box. -/
theorem decimate_boxed (hlimit : 0 < limit) {t₀ t₁ w₀ w₁ : ℚ} (h : Boxed points t₀ t₁ w₀ w₁) :
    Boxed (decimate points limit) t₀ t₁ w₀ w₁ := by
  unfold decimate
  by_cases hle : points.length ≤ limit
  · rwa [if_pos hle]
  · obtain ⟨hpos, -⟩ := bucket_spec hlimit (not_le.mp hle)
    rw [if_neg hle]
    set bucket := ⌈(points.length : ℚ) / limit⌉.toNat with hbucket
    intro p hp
    obtain ⟨i, hi, rfl⟩ := List.mem_map.mp hp
    have hstart : i * bucket < points.length := by
      have hceil := Int.lt_toNat.mp (List.mem_range.mp hi)
      rw [Int.lt_ceil, lt_div_iff₀ (by exact_mod_cast hpos)] at hceil
      exact_mod_cast hceil
    refine meanPoint_boxed ?_ fun q hq => h q (List.mem_of_mem_drop (List.mem_of_mem_take hq))
    rw [← List.length_pos_iff, List.length_take, List.length_drop]
    omega

end Buckets

/-! ### The bands -/

/-- The bands from `start`: each begins where the one before ends, and the last ends at `stop`. -/
inductive Tile (stop : ℚ) : ℚ → List (String × ℚ × ℚ) → Prop where
  /-- The last band. -/
  | last (phase : String) (start : ℚ) : Tile stop start [(phase, start, stop)]
  /-- A band, and those from where it ends, of which the first is of another phase. -/
  | next {phase phase' : String} {start t t' : ℚ} {rest : List (String × ℚ × ℚ)} : phase ≠ phase' →
      Tile stop t ((phase', t, t') :: rest) →
        Tile stop start ((phase, start, t) :: (phase', t, t') :: rest)

theorem bandsFrom_tile (stop : ℚ) (ss : List ChartSample) : ∀ phase start,
    Tile stop start (bandsFrom phase start ss stop) ∧
      ∃ t rest, bandsFrom phase start ss stop = (phase, start, t) :: rest := by
  induction ss with
  | nil => exact fun phase start => ⟨.last phase start, stop, [], rfl⟩
  | cons s ss ih =>
    intro phase start
    by_cases hphase : s.phase = phase
    · rw [bandsFrom, if_pos hphase]
      exact ih phase start
    · obtain ⟨htile, t, rest, heq⟩ := ih s.phase s.t
      rw [bandsFrom, if_neg hphase]
      rw [heq] at htile ⊢
      exact ⟨.next (Ne.symm hphase) htile, s.t, _, rfl⟩

/-- The bands tile the chart from the first sample to its end. -/
theorem bands_tile (s : ChartSample) (ss : List ChartSample) (stop : ℚ) :
    Tile stop s.t (bands (s :: ss) stop) :=
  (bandsFrom_tile stop ss s.phase s.t).1

/-! ### What is drawn -/

section Fits

variable {samples} (ht : ∀ s ∈ samples, 0 ≤ s.t)
    (hw : ∀ s ∈ samples, ∀ w ∈ gpuWatts s.toSample, 0 ≤ w)

theorem maxOr_nonneg {values : List ℚ} (h : ∀ x ∈ values, 0 ≤ x) : 0 ≤ maxOr values := by
  unfold maxOr
  cases hmax : values.max? with
  | none => exact le_rfl
  | some m => exact h m (List.max?_eq_some_iff.mp hmax).1

include ht in
theorem tMax_pos : 0 < tMax samples := by
  have hnonneg : 0 ≤ maxOr ((totalPoints samples).map Prod.fst) := by
    refine maxOr_nonneg fun x hx => ?_
    obtain ⟨p, hp, rfl⟩ := List.mem_map.mp hx
    obtain ⟨s, hs, rfl⟩ := List.mem_map.mp hp
    exact ht s (List.mem_of_mem_filter hs)
  unfold tMax
  dsimp only
  split_ifs with hzero
  · exact one_pos
  · exact lt_of_le_of_ne hnonneg (Ne.symm hzero)

theorem le_tMax {s : ChartSample} (hs : s ∈ powered samples) : s.t ≤ tMax samples := by
  have hle : s.t ≤ maxOr ((totalPoints samples).map Prod.fst) :=
    le_maxOr (List.mem_map.mpr ⟨_, List.mem_map.mpr ⟨s, hs, rfl⟩, rfl⟩)
  unfold tMax
  dsimp only
  split_ifs with hzero
  · linarith
  · exact hle

theorem sum_le_wMax {s : ChartSample} (hs : s ∈ powered samples) :
    (gpuWatts s.toSample).sum ≤ wMax samples :=
  (le_maxOr (List.mem_map.mpr ⟨_, List.mem_map.mpr ⟨s, hs, rfl⟩, rfl⟩)).trans (le_foldl_max _ _ _).1

theorem le_wMax {key : String} (hkey : key ∈ gpuKeys samples) {p : Point}
    (hp : p ∈ series samples key) :
    p.2 ≤ wMax samples :=
  (le_maxOr (List.mem_map.mpr ⟨p, hp, rfl⟩)).trans ((le_foldl_max _ _ _).2 key hkey)

include ht hw

theorem totalPoints_boxed : Boxed (totalPoints samples) 0 (tMax samples) 0 (wMax samples) := by
  intro p hp
  obtain ⟨s, hs, rfl⟩ := List.mem_map.mp hp
  have hmem := List.mem_of_mem_filter hs
  exact ⟨ht s hmem, le_tMax hs, List.sum_nonneg (hw s hmem), sum_le_wMax hs⟩

theorem series_boxed {key : String} (hkey : key ∈ gpuKeys samples) :
    Boxed (series samples key) 0 (tMax samples) 0 (wMax samples) := by
  intro p hp
  obtain ⟨s, hs, hpt, hpw⟩ := mem_series samples hp
  have hmem := List.mem_of_mem_filter hs
  exact ⟨hpt ▸ ht s hmem, hpt ▸ le_tMax hs, hw s hmem _ hpw, le_wMax hkey hp⟩

omit ht hw in
/-- What lies between two integers is printed between them. -/
theorem printed_bounds {a b : ℤ} {x : ℚ} (h : (a : ℚ) ≤ x ∧ x ≤ b) :
    (a : ℚ) ≤ printed x ∧ printed x ≤ b := by
  have hlow := HalfEven.roundTo_mono 1 h.1
  have hhigh := HalfEven.roundTo_mono 1 h.2
  rw [HalfEven.roundTo_intCast] at hlow hhigh
  exact ⟨hlow, hhigh⟩

omit ht hw in
theorem xOf_bounds {tMax t : ℚ} (hpos : 0 < tMax) (h₀ : 0 ≤ t) (h₁ : t ≤ tMax) :
    plotLeft ≤ printed (xOf tMax t) ∧ printed (xOf tMax t) ≤ plotRight := by
  have hlow : 0 ≤ t / tMax := div_nonneg h₀ hpos.le
  have hhigh : t / tMax ≤ 1 := (div_le_one hpos).mpr h₁
  have hbounds : ((62 : ℤ) : ℚ) ≤ xOf tMax t ∧ xOf tMax t ≤ (1022 : ℤ) := by
    unfold xOf plotLeft plotRight
    push_cast
    constructor <;> linarith
  have hprinted := printed_bounds hbounds
  unfold plotLeft plotRight
  push_cast at hprinted
  exact ⟨hprinted.1, by linarith [hprinted.2]⟩

omit ht hw in
theorem yOf_bounds {yTop w : ℚ} (hpos : 0 < yTop) (h₀ : 0 ≤ w) (h₁ : w ≤ yTop) :
    plotTop ≤ printed (yOf yTop w) ∧ printed (yOf yTop w) ≤ plotBottom := by
  have hlow : 0 ≤ w / yTop := div_nonneg h₀ hpos.le
  have hhigh : w / yTop ≤ 1 := (div_le_one hpos).mpr h₁
  have hbounds : ((46 : ℤ) : ℚ) ≤ yOf yTop w ∧ yOf yTop w ≤ (288 : ℤ) := by
    unfold yOf plotTop plotBottom
    push_cast
    constructor <;> linarith
  have hprinted := printed_bounds hbounds
  unfold plotTop plotBottom
  push_cast at hprinted
  exact ⟨hprinted.1, by linarith [hprinted.2]⟩

omit ht hw in
theorem yTop_pos : 0 < yTop samples := by
  obtain ⟨n, hn, -, htop, -⟩ := yTop_spec samples
  have hcast : (3 : ℚ) ≤ n := by exact_mod_cast hn
  rw [← htop]
  exact mul_pos (by linarith) (yStep_spec samples).1

omit ht hw in
theorem wMax_le_yTop : wMax samples ≤ yTop samples := by
  obtain ⟨-, -, -, -, hpeak⟩ := yTop_spec samples
  exact hpeak

/-- A point of the plot. -/
def InPlot (p : Point) : Prop := plotLeft ≤ p.1 ∧ p.1 ≤ plotRight ∧ plotTop ≤ p.2 ∧ p.2 ≤ plotBottom

omit hw in
/-- The line of points in the box of the data. -/
theorem polyline_fits {points : List Point} (h : Boxed points 0 (tMax samples) 0 (wMax samples)) :
    ∃ drawn, polyline samples points = .polyline drawn ∧ drawn.length ≤ 1200 ∧
      ∀ p ∈ drawn, InPlot p := by
  refine ⟨_, rfl, ?_, fun p hp => ?_⟩
  · rw [List.length_map]
    exact length_decimate (by norm_num)
  · obtain ⟨q, hq, rfl⟩ := List.mem_map.mp hp
    obtain ⟨ht₀, ht₁, hw₀, hw₁⟩ := decimate_boxed (by norm_num) h q hq
    have hx := xOf_bounds (tMax_pos ht) ht₀ ht₁
    have hy := yOf_bounds yTop_pos hw₀ (hw₁.trans wMax_le_yTop)
    exact ⟨hx.1, hx.2, hy.1, hy.2⟩

theorem dataShapes_fit {shape : Shape} (h : shape ∈ dataShapes samples) :
    ∃ drawn, shape = .polyline drawn ∧ drawn.length ≤ 1200 ∧ ∀ p ∈ drawn, InPlot p := by
  rcases List.mem_append.mp h with h | h
  · split_ifs at h
    · obtain ⟨points, hpoints, rfl⟩ := List.mem_map.mp h
      obtain ⟨key, hkey, rfl⟩ := List.mem_map.mp (List.mem_of_mem_filter hpoints)
      exact polyline_fits ht (series_boxed ht hw hkey)
    · cases h
  · split_ifs at h
    · obtain rfl := List.mem_singleton.mp h
      exact polyline_fits ht (totalPoints_boxed ht hw)
    · cases h

omit ht hw in
theorem mean_of_busiest (sums : List (String × List ℚ)) : ∀ best : Option (String × ℚ), ∀ b,
    sums.foldl busier best = some b → best = some b ∨ ∃ p ∈ sums, b.2 = p.2.sum / p.2.length := by
  induction sums with
  | nil => exact fun best b h => .inl h
  | cons p sums ih =>
    intro best b h
    rcases ih _ b h with hbest | ⟨q, hq, hb⟩
    · unfold busier at hbest
      split at hbest
      · exact .inr ⟨p, List.mem_cons_self, by rw [← Option.some.inj hbest]⟩
      · split_ifs at hbest
        · exact .inr ⟨p, List.mem_cons_self, by rw [← Option.some.inj hbest]⟩
        · exact .inl hbest
    · exact .inr ⟨q, List.mem_cons_of_mem _ hq, hb⟩

omit ht in
/-- The mean of the busiest phase is in the plot. -/
theorem meanShapes_fit {shape : Shape} (h : shape ∈ meanShapes samples) :
    ∃ y, shape = .line plotLeft y plotRight y ∧ plotTop ≤ y ∧ y ≤ plotBottom := by
  obtain ⟨b, hb, rfl⟩ := List.mem_map.mp h
  rw [Option.mem_toList] at hb
  obtain ⟨p, hp, hmean⟩ := (mean_of_busiest _ none b hb).resolve_left (by simp)
  obtain ⟨phase, hphase, rfl⟩ := List.mem_map.mp hp
  rw [List.mem_eraseDups] at hphase
  obtain ⟨s, hs, hsphase⟩ := List.mem_map.mp hphase
  have hbounds := mean_bounds
    (l := ((powered samples).filter (·.phase = phase)).map fun s => (gpuWatts s.toSample).sum)
    (List.ne_nil_of_mem
      (List.mem_map.mpr ⟨s, List.mem_filter.mpr ⟨hs, by simpa using hsphase⟩, rfl⟩))
    (a := 0) (b := wMax samples) fun x hx => by
      obtain ⟨s', hs', rfl⟩ := List.mem_map.mp hx
      have hpowered := List.mem_of_mem_filter hs'
      exact ⟨List.sum_nonneg (hw s' (List.mem_of_mem_filter hpowered)), sum_le_wMax hpowered⟩
  rw [← hmean] at hbounds
  exact ⟨_, rfl, yOf_bounds yTop_pos hbounds.1 (hbounds.2.trans wMax_le_yTop)⟩

/-- **The chart fits.** Where something is drawn of samples whose times and powers are not negative:
every line of points has at most 1,200 of them, all in the plot, and the mean of the busiest phase
is in it; the power axis has from three to five of its steps, the next nice number at a fifth of its
height or above, ends on a tick, and the peak is below that; the time axis has at least four of its
steps, and eight at most. -/
theorem chart_fits {markers : List ℚ} {shapes : List Shape}
    (h : renderSvg samples markers = some shapes) :
    (∀ drawn, Shape.polyline drawn ∈ shapes → drawn.length ≤ 1200 ∧ ∀ p ∈ drawn, InPlot p) ∧
      (∀ shape ∈ meanShapes samples, shape ∈ shapes ∧
        ∃ y, shape = .line plotLeft y plotRight y ∧ plotTop ≤ y ∧ y ≤ plotBottom) ∧
      (∃ n : ℕ, 3 ≤ n ∧ n ≤ 5 ∧ yTicks samples = (List.range (n + 1)).map
      (fun k : ℕ => k * yStep samples) ∧
        n * yStep samples = yTop samples ∧ wMax samples ≤ yTop samples) ∧
      (∃ n : ℕ, 4 ≤ n ∧ (8 * epsilon < tMax samples → n ≤ 8) ∧
        xTicks samples = (List.range (n + 1)).map (fun k : ℕ => k * xStep samples) ∧
        n * xStep samples ≤ tMax samples + epsilon ∧
          tMax samples + epsilon < (n + 1) * xStep samples) ∧
      IsLeast {y | Nice 10 stepFactors y ∧ yCeiling samples / 5 ≤ y} (yStep samples) ∧
      IsLeast {y | Nice 10 stepFactors y ∧ tMax samples / 8 ≤ y} (xStep samples) ∧
      IsLeast {y | Nice 10 ceilingFactors y ∧ max (wMax samples * (106 / 100)) 1 ≤ y}
          (yCeiling samples) := by
  unfold renderSvg at h
  split_ifs at h
  obtain rfl := Option.some.inj h
  have hceiling : 0 < yCeiling samples := one_pos.trans_le (yCeiling_spec samples).2
  refine ⟨fun drawn hdrawn => ?_, fun shape hshape =>
    ⟨?_, meanShapes_fit hw hshape⟩, yTicks_eq samples,
    xTicks_eq samples (tMax_pos ht), isLeast_niceStep hceiling (show 0 < 5 by norm_num),
    isLeast_niceStep (tMax_pos ht) (show 0 < 8 by norm_num),
      isLeast_niceCeiling (lt_max_of_lt_right one_pos)⟩
  · simp only [List.mem_append] at hdrawn
    rcases hdrawn with ((((hband | hy) | hx) | hmarker) | hmean) | hdata
    · obtain ⟨b, -, hb⟩ := List.mem_map.mp hband
      cases hb
    · obtain ⟨w, -, hw'⟩ := List.mem_map.mp hy
      cases hw'
    · obtain ⟨t, -, ht'⟩ := List.mem_map.mp hx
      cases ht'
    · obtain ⟨t, -, ht'⟩ := List.mem_map.mp hmarker
      cases ht'
    · obtain ⟨y, heq, -⟩ := meanShapes_fit hw hmean
      cases heq
    · obtain ⟨drawn', heq, hfits⟩ := dataShapes_fit ht hw hdata
      cases heq
      exact hfits
  · exact List.mem_append_left _ (List.mem_append_right _ hshape)

end Fits

/-! ### A chart of two samples -/

/-- A GPU that draws `w` watts. -/
def gpu (w : ℚ) : Device := ⟨"gpu0", "gpu", some w, none, none, none, none, none⟩

def twoSamples : List ChartSample := [⟨⟨0, [gpu 20]⟩, "idle_before"⟩, ⟨⟨3, [gpu 90]⟩, "load"⟩]

theorem chart_fits_two : ∃ shapes, renderSvg twoSamples [1] = some shapes ∧
    ∀ drawn, Shape.polyline drawn ∈ shapes → drawn.length ≤ 1200 ∧ ∀ p ∈ drawn, InPlot p := by
  have ht : ∀ s ∈ twoSamples, 0 ≤ s.t := by simp [twoSamples]
  have hw : ∀ s ∈ twoSamples, ∀ w ∈ gpuWatts s.toSample, 0 ≤
    w := by simp [twoSamples, gpuWatts, gpu]
  have hdrawn : ¬(twoSamples.length < 2 ∨ totalPoints twoSamples = []) := by
    simp [twoSamples, totalPoints, powered, gpuWatts, gpu]
  exact ⟨_, if_neg hdrawn, (chart_fits ht hw (if_neg hdrawn)).1⟩

end Glm53Serve.BenchPower
