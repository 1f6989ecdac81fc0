import Mathlib
import Glm53Serve.Lib.Series

/-!
# Energy from power samples and from counters

`tools/bench-power.py` has two sources of energy: it integrates the power samples by
trapezoids, leaving out segments across a gap in the sampling (`trapezoid_energy`), and
it takes the difference of a cumulative millijoule counter (`counter_energy`).

## The model

Times, watts and millijoules are elements of an ordered field: the arithmetic is exact.
A reading that is missing is `none`. The loop over segments adds triples (energy, excluded
seconds, excluded segments), and `Series.total` is what it computes.

## What is proved

* `trapezoidEnergy_laws` — the counted and the excluded seconds make up the whole time,
  the energy is within the extreme powers times the counted seconds, and a series may be
  cut at any of its points.
* `counterEnergy_readings` — what the counter gives for fewer than two readings, for
  readings that end below their start, and for readings that never decrease.
-/

namespace Glm53Serve.BenchPower

variable {K : Type*} [Field K] [LinearOrder K]

/-! ### Trapezoids -/

/-- The body of the loop of `trapezoid_energy`, on the segment from `p` to `q`; the
accumulator is `(energy, excluded_seconds, excluded_segments)`. -/
def trapezoidStep (maxGap : K) (acc : K × K × ℕ) (p q : K × K) : K × K × ℕ :=
  let dt := q.1 - p.1
  if dt ≤ 0 then acc
  else if maxGap < dt then (acc.1, acc.2.1 + dt, acc.2.2 + 1)
  else (acc.1 + (p.2 + q.2) / (2 : ℕ) * dt, acc.2.1, acc.2.2)

/-- `trapezoid_energy(points, max_gap)`. -/
def trapezoidEnergy (maxGap : K) (points : List (K × K)) : K × K × ℕ :=
  (points.zip points.tail).foldl (fun acc p => trapezoidStep maxGap acc p.1 p.2) (0, 0, 0)

/-- The segment from `p` to `q` is integrated. -/
def Counted (maxGap : K) (p q : K × K) : Prop := 0 < q.1 - p.1 ∧ q.1 - p.1 ≤ maxGap

instance (maxGap : K) (p q : K × K) : Decidable (Counted maxGap p q) :=
  inferInstanceAs (Decidable (_ ∧ _))

/-- The duration of the segments that are integrated. -/
def countedSeconds (maxGap : K) (points : List (K × K)) : K :=
  Series.total (fun p q => if Counted maxGap p q then q.1 - p.1 else 0) points

/-- The last time minus the first; zero where there is none. -/
def elapsed (points : List (K × K)) : K :=
  match points.head?, points.getLast? with
  | some first, some last => last.1 - first.1
  | _, _ => 0

/-- The least power; zero where there is none. -/
def minPower (points : List (K × K)) : K := (points.map Prod.snd).min?.getD 0

/-- The greatest power; zero where there is none. -/
def maxPower (points : List (K × K)) : K := (points.map Prod.snd).max?.getD 0

/-- What one segment adds. -/
def segment (maxGap : K) (p q : K × K) : K × K × ℕ := trapezoidStep maxGap (0, 0, 0) p q

/-! What a segment adds: nothing, its duration as a gap, or its trapezoid. -/

theorem segment_of_le {maxGap : K} {p q : K × K} (h : q.1 - p.1 ≤ 0) :
    segment maxGap p q = (0, 0, 0) := by
  simp [segment, trapezoidStep, h]

theorem segment_of_gap {maxGap : K} {p q : K × K} (h : 0 < q.1 - p.1) (hg : maxGap < q.1 - p.1) :
    segment maxGap p q = (0, q.1 - p.1, 1) := by
  simp [segment, trapezoidStep, not_le.2 h, hg]

theorem segment_of_counted {maxGap : K} {p q : K × K} (h : Counted maxGap p q) :
    segment maxGap p q = ((p.2 + q.2) / 2 * (q.1 - p.1), 0, 0) := by
  simp [segment, trapezoidStep, not_le.2 h.1, not_lt.2 h.2]

theorem trapezoidStep_eq (maxGap : K) (acc : K × K × ℕ) (p q : K × K) :
    trapezoidStep maxGap acc p q = acc + segment maxGap p q := by
  obtain ⟨e, s, n⟩ := acc
  simp only [segment, trapezoidStep]
  split_ifs <;> simp

/-- The loop sums what the segments add. -/
theorem trapezoidEnergy_eq (maxGap : K) (points : List (K × K)) :
    trapezoidEnergy maxGap points = Series.total (segment maxGap) points := by
  rw [trapezoidEnergy]
  simp only [trapezoidStep_eq]
  rw [Series.foldl_adjacent]
  exact zero_add _

theorem energy_eq (maxGap : K) (points : List (K × K)) :
    (trapezoidEnergy maxGap points).1 =
      Series.total (fun p q => (segment maxGap p q).1) points := by
  rw [trapezoidEnergy_eq]
  exact Series.map_total (AddMonoidHom.fst K (K × ℕ)) _ points

theorem excludedSeconds_eq (maxGap : K) (points : List (K × K)) :
    (trapezoidEnergy maxGap points).2.1 =
      Series.total (fun p q => (segment maxGap p q).2.1) points := by
  rw [trapezoidEnergy_eq]
  exact Series.map_total ((AddMonoidHom.fst K ℕ).comp (AddMonoidHom.snd K (K × ℕ))) _ points

/-- A series is the sum of its parts up to and from any of its points. -/
theorem trapezoidEnergy_split (maxGap : K) {points : List (K × K)} {i : ℕ}
    (h : i < points.length) :
    trapezoidEnergy maxGap points =
      trapezoidEnergy maxGap (points.take (i + 1)) + trapezoidEnergy maxGap (points.drop i) := by
  simp only [trapezoidEnergy_eq]
  exact Series.total_split _ h

section Ordered

variable [IsStrictOrderedRing K] {maxGap : K} {points : List (K × K)}

/-- A segment that does not go back in time is counted, or excluded, or has no length. -/
theorem counted_add_excluded {p q : K × K} (h : p.1 ≤ q.1) :
    (if Counted maxGap p q then q.1 - p.1 else 0) + (segment maxGap p q).2.1 = q.1 - p.1 := by
  rcases (sub_nonneg.2 h).eq_or_lt with hz | hpos
  · rw [segment_of_le hz.ge, ← hz]
    simp
  rcases lt_or_ge maxGap (q.1 - p.1) with hg | hg
  · rw [segment_of_gap hpos hg, if_neg fun hc : Counted maxGap p q => not_le.2 hg hc.2, zero_add]
  · have hc : Counted maxGap p q := ⟨hpos, hg⟩
    rw [segment_of_counted hc, if_pos hc, add_zero]

theorem countedSeconds_add_excluded (ht : points.IsChain fun p q => p.1 ≤ q.1) :
    countedSeconds maxGap points + (trapezoidEnergy maxGap points).2.1 = elapsed points := by
  rw [countedSeconds, excludedSeconds_eq, ← Series.total_add,
    Series.total_congr (ht.imp fun p q => counted_add_excluded)]
  cases points with
  | nil => rfl
  | cons p ps =>
    rw [Series.total_sub Prod.fst, elapsed, List.getLast?_eq_some_getLast (List.cons_ne_nil p ps)]
    rfl

/-- A trapezoid lies between the rectangles of two powers that bound its sides. -/
theorem segment_energy_bounds {lo hi : K} {p q : K × K} (hp : lo ≤ p.2 ∧ p.2 ≤ hi)
    (hq : lo ≤ q.2 ∧ q.2 ≤ hi) :
    lo * (if Counted maxGap p q then q.1 - p.1 else 0) ≤ (segment maxGap p q).1 ∧
      (segment maxGap p q).1 ≤ hi * (if Counted maxGap p q then q.1 - p.1 else 0) := by
  by_cases hc : Counted maxGap p q
  · rw [segment_of_counted hc, if_pos hc]
    have hlo : lo ≤ (p.2 + q.2) / 2 := by linarith [hp.1, hq.1]
    have hhi : (p.2 + q.2) / 2 ≤ hi := by linarith [hp.2, hq.2]
    exact ⟨mul_le_mul_of_nonneg_right hlo hc.1.le, mul_le_mul_of_nonneg_right hhi hc.1.le⟩
  · rw [if_neg hc, mul_zero, mul_zero]
    rcases le_or_gt (q.1 - p.1) 0 with hz | hpos
    · rw [segment_of_le hz]
      exact ⟨le_rfl, le_rfl⟩
    · rw [segment_of_gap hpos (not_le.1 fun hg => hc ⟨hpos, hg⟩)]
      exact ⟨le_rfl, le_rfl⟩

omit [IsStrictOrderedRing K] in
theorem mul_countedSeconds (w : K) :
    w * countedSeconds maxGap points =
      Series.total (fun p q => w * if Counted maxGap p q then q.1 - p.1 else 0) points :=
  Series.map_total (AddMonoidHom.mulLeft w) _ points

/-- The energy is within any two powers that bound the series, times the counted time. -/
theorem energy_bounds {lo hi : K} (h : ∀ p ∈ points, lo ≤ p.2 ∧ p.2 ≤ hi) :
    lo * countedSeconds maxGap points ≤ (trapezoidEnergy maxGap points).1 ∧
      (trapezoidEnergy maxGap points).1 ≤ hi * countedSeconds maxGap points := by
  have hs : points.IsChain fun p q =>
      lo * (if Counted maxGap p q then q.1 - p.1 else 0) ≤ (segment maxGap p q).1 ∧
        (segment maxGap p q).1 ≤ hi * (if Counted maxGap p q then q.1 - p.1 else 0) :=
    (List.pairwise_of_forall_mem_list fun p hp q hq =>
      segment_energy_bounds (h p hp) (h q hq)).isChain
  rw [energy_eq, mul_countedSeconds, mul_countedSeconds]
  exact ⟨Series.total_le_total (hs.imp fun _ _ hpq => hpq.1),
    Series.total_le_total (hs.imp fun _ _ hpq => hpq.2)⟩

omit [Field K] [IsStrictOrderedRing K] in
theorem power_bounds [Zero K] {p : K × K} (hp : p ∈ points) :
    (points.map Prod.snd).min?.getD 0 ≤ p.2 ∧ p.2 ≤ (points.map Prod.snd).max?.getD 0 := by
  have hmem : p.2 ∈ points.map Prod.snd := List.mem_map_of_mem hp
  obtain ⟨lo, hlo⟩ := Option.isSome_iff_exists.1 (List.isSome_min?_of_mem hmem)
  obtain ⟨hi, hhi⟩ := Option.isSome_iff_exists.1 (List.isSome_max?_of_mem hmem)
  rw [hlo, hhi]
  exact ⟨(List.min?_eq_some_iff.1 hlo).2 _ hmem, (List.max?_eq_some_iff.1 hhi).2 _ hmem⟩

/-- **The laws of the integration**, of every series whose times do not decrease. -/
theorem trapezoidEnergy_laws (maxGap : K) (points : List (K × K))
    (ht : points.IsChain fun p q => p.1 ≤ q.1) :
    countedSeconds maxGap points + (trapezoidEnergy maxGap points).2.1 = elapsed points ∧
    (minPower points * countedSeconds maxGap points ≤ (trapezoidEnergy maxGap points).1 ∧
      (trapezoidEnergy maxGap points).1 ≤ maxPower points * countedSeconds maxGap points) ∧
    ∀ i < points.length,
      trapezoidEnergy maxGap points =
        trapezoidEnergy maxGap (points.take (i + 1)) + trapezoidEnergy maxGap (points.drop i) :=
  ⟨countedSeconds_add_excluded ht, energy_bounds fun _ hp => power_bounds hp,
    fun _ hi => trapezoidEnergy_split maxGap hi⟩

/-- A series with a segment of no length, a gap, and a segment of exactly the threshold. -/
theorem trapezoidEnergy_laws_gap :
    let points : List (ℚ × ℚ) := [(0, 100), (0, 80), (1, 60), (5, 60), (7, 100)]
    points.IsChain (fun p q => p.1 ≤ q.1) ∧ trapezoidEnergy 2 points = (230, 4, 1) ∧
      countedSeconds 2 points + (trapezoidEnergy 2 points).2.1 = 7 := by
  intro points
  have ht : points.IsChain fun p q => p.1 ≤ q.1 := by
    simp only [points, List.isChain_cons_cons]
    norm_num
  have h := trapezoidEnergy_laws 2 points ht
  have hlen : elapsed points = 7 := by norm_num [points, elapsed]
  exact ⟨ht, by decide +kernel, h.1.trans hlen⟩

end Ordered

/-! ### Counters -/

/-- The readings of a counter that are there. -/
def usableReadings (points : List (K × Option K)) : List K := points.filterMap Prod.snd

/-- `counter_energy(points)`. -/
def counterEnergy (points : List (K × Option K)) : Option K :=
  let usable := usableReadings points
  if h : usable.length < 2 then none
  else
    let delta := usable[usable.length - 1] - usable[0]
    -- counter reset or wrap without known range: refuse
    if delta < 0 then none else some (delta / 1000)

/-- A reset is refused, and otherwise the energy is the last reading less the first. -/
def RefusesResets (points : List (K × Option K)) : Prop :=
  let usable := usableReadings points
  (¬ usable.IsChain (· ≤ ·) → counterEnergy points = none) ∧
    (usable.IsChain (· ≤ ·) → ∃ first ∈ usable.head?, ∃ last ∈ usable.getLast?,
      counterEnergy points = some ((last - first) / 1000))

theorem counterEnergy_of_few {points : List (K × Option K)}
    (h : (usableReadings points).length < 2) : counterEnergy points = none := by
  simp [counterEnergy, h]

/-- With two readings or more, only the first and the last of them count. -/
theorem counterEnergy_of_ends {points : List (K × Option K)} {first last : K}
    (h : 2 ≤ (usableReadings points).length) (hfirst : first ∈ (usableReadings points).head?)
    (hlast : last ∈ (usableReadings points).getLast?) :
    counterEnergy points = if last - first < 0 then none else some ((last - first) / 1000) := by
  rw [Option.mem_def, List.head?_eq_getElem?, List.getElem?_eq_some_iff] at hfirst
  rw [Option.mem_def, List.getLast?_eq_getElem?, List.getElem?_eq_some_iff] at hlast
  obtain ⟨_, rfl⟩ := hfirst
  obtain ⟨_, rfl⟩ := hlast
  simp only [counterEnergy, dif_neg (not_lt.2 h)]

omit [Field K] in
/-- The first of readings that never decrease is the least. -/
theorem head_le_getLast {xs : List K} (h : xs.IsChain (· ≤ ·)) {first last : K}
    (hfirst : first ∈ xs.head?) (hlast : last ∈ xs.getLast?) : first ≤ last := by
  cases xs with
  | nil => simp at hfirst
  | cons x xs =>
    obtain rfl : x = first := by simpa using hfirst
    rcases List.mem_cons.1 (List.mem_of_mem_getLast? hlast) with rfl | hmem
    · exact le_rfl
    · exact (List.pairwise_cons.1 h.pairwise).1 last hmem

variable [IsStrictOrderedRing K]

/-- **The counter**: fewer than two readings give nothing, and neither do readings that end
below their start; readings that never decrease give the last less the first. -/
theorem counterEnergy_readings (points : List (K × Option K)) :
    ((usableReadings points).length < 2 → counterEnergy points = none) ∧
    (∀ first ∈ (usableReadings points).head?, ∀ last ∈ (usableReadings points).getLast?,
      last < first → counterEnergy points = none) ∧
    (2 ≤ (usableReadings points).length → (usableReadings points).IsChain (· ≤ ·) →
      ∃ first ∈ (usableReadings points).head?, ∃ last ∈ (usableReadings points).getLast?,
        counterEnergy points = some ((last - first) / 1000)) := by
  refine ⟨counterEnergy_of_few, fun first hfirst last hlast hlt => ?_, fun hlen hmono => ?_⟩
  · rcases lt_or_ge (usableReadings points).length 2 with hlen | hlen
    · exact counterEnergy_of_few hlen
    · rw [counterEnergy_of_ends hlen hfirst hlast, if_pos (sub_neg.2 hlt)]
  · have hne : usableReadings points ≠ [] := List.ne_nil_of_length_pos (by omega)
    have hfirst := List.head?_eq_some_head hne
    have hlast := List.getLast?_eq_some_getLast hne
    refine ⟨_, hfirst, _, hlast, ?_⟩
    rw [counterEnergy_of_ends hlen hfirst hlast,
      if_neg (not_lt.2 (sub_nonneg.2 (head_le_getLast hmono hfirst hlast)))]

/-- A counter that is read twice, with a reading missing between. -/
theorem counterEnergy_readings_missing :
    ∃ first ∈ (usableReadings [((0 : ℚ), some (1000 : ℚ)), (1, none), (2, some 4000)]).head?,
      ∃ last ∈ (usableReadings [((0 : ℚ), some (1000 : ℚ)), (1, none), (2, some 4000)]).getLast?,
        counterEnergy [((0 : ℚ), some (1000 : ℚ)), (1, none), (2, some 4000)] =
          some ((last - first) / 1000) := by
  refine (counterEnergy_readings [((0 : ℚ), some (1000 : ℚ)), (1, none), (2, some 4000)]).2.2 ?_ ?_
  · simp [usableReadings]
  · rw [show usableReadings [((0 : ℚ), some (1000 : ℚ)), (1, none), (2, some 4000)] = [1000, 4000]
      from rfl, List.isChain_pair]
    norm_num

/-- A single reading gives nothing, where its difference to itself would be zero; and a
counter that was reset and then passed its first reading again gives their difference. -/
theorem counterEnergy_one_reading :
    ¬ RefusesResets [((0 : ℚ), some (5 : ℚ))] ∧
      ¬ RefusesResets [((0 : ℚ), some (10 : ℚ)), (1, some 0), (2, none), (3, some 20)] := by
  constructor
  · rintro ⟨-, h⟩
    obtain ⟨first, -, last, -, he⟩ := h (by simp [usableReadings])
    rw [counterEnergy_of_few (by simp [usableReadings])] at he
    cases he
  · rintro ⟨h, -⟩
    have hs : counterEnergy [((0 : ℚ), some (10 : ℚ)), (1, some 0), (2, none), (3, some 20)] =
        some (10 / 1000) := by decide +kernel
    have hn := hs.symm.trans (h (by simp [usableReadings]))
    cases hn

end Glm53Serve.BenchPower
