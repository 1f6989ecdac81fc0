import Glm53Serve.BenchAb.RunArm
import Glm53Serve.Py.Json
import Mathlib

/-!
# The comparison of the arms

`build_comparison` collects the samples of the benchmarks of the successful arms, metric by
metric, and compares each arm with the baseline, the first one.

## The model

`build_comparison` with its statistics in exact arithmetic; a dictionary is the list of its
entries in order. The nested loops over arms, benchmarks and samples are one loop over
`entries`.

## What is proved

* `buildComparison_congr` — the records of an arm that is not ok are not read.
* `mem_metrics` — every statistic is of an arm that is ok.
-/

namespace Glm53Serve.BenchAb

open Py Json

/-! ### Statistics -/

/-- Which values of a metric are better. -/
inductive Direction where
  | higher
  | lower
  | neutral
  deriving DecidableEq

/-- `spec.direction`. -/
def Bench.direction : Bench → List (Text × Direction)
  | decodeStructured | decodeProse => [("decode_tok_s".toList, .higher), ("ttft_s".toList, .lower)]
  | prefixCache =>
    [("cold_ttft_s".toList, .lower), ("warm_ttft_s".toList, .lower),
      ("prefix_hit_ratio".toList, .higher), ("hit_efficiency".toList, .higher),
      ("speedup".toList, .higher)]
  | cacheSessions =>
    [("cold_hit_fraction".toList, .neutral), ("warm_hit_fraction".toList, .higher),
      ("warm_ttft_s".toList, .lower), ("warm_decode_tok_s".toList, .higher),
      ("warm_wall_s".toList, .lower)]
  | shortChat => [("ttft_s".toList, .lower), ("decode_tok_s".toList, .higher)]

/-- What `numeric_stats` returns of values that are finite. -/
structure Stats where
  n : ℕ
  median : Option ℚ
  p99 : Option ℚ
  min : Option ℚ
  max : Option ℚ
  mean : Option ℚ
  deriving DecidableEq

/-- `statistics.median(values)`. -/
def median (values : List ℚ) : Option ℚ :=
  let ordered := values.mergeSort
  let half := ordered.length / 2
  if ordered.length % 2 = 1 then ordered[half]?
  else
    match ordered[half - 1]?, ordered[half]? with
    | some a, some b => some ((a + b) / 2)
    | _, _ => none

/-- `percentile(values, quantile)`. -/
def percentile (values : List ℚ) (quantile : ℚ) : Option ℚ :=
  let ordered := values.mergeSort
  let rank := max 1 ⌈quantile / 100 * ordered.length⌉.toNat
  ordered[min rank ordered.length - 1]?

/-- `numeric_stats(values)`. -/
def numericStats (values : List ℚ) : Stats where
  n := values.length
  median := median values
  p99 := percentile values 99
  min := values.min?
  max := values.max?
  mean := if values = [] then none else some (values.sum / values.length)

/-- `_delta_pct(baseline, candidate, direction)`. -/
def deltaPct (baseline candidate : Option ℚ) (direction : Direction) : Option ℚ :=
  match baseline, candidate with
  | some b, some c =>
    if b = 0 then none
    else if direction = .lower then some ((b - c) / |b| * 100)
    else some ((c - b) / |b| * 100)
  | _, _ => none

/-! ### The comparison -/

/-- What the loops find: the key of a metric, its direction, the arm and its statistics. -/
structure Entry where
  key : Text
  direction : Direction
  arm : Text
  stats : Stats

/-- The entries of a benchmark's record. -/
def recordEntries (armName : Text) (r : Record) : List Entry :=
  match r.ok, r.metrics with
  | true, some samples =>
    samples.filterMap fun (sample, values) =>
      let clean := values.filterMap id
      if clean = [] then none
      else some ⟨r.bench.name ++ '.' :: sample, (r.bench.direction.lookup sample).getD .neutral,
        armName, numericStats clean⟩
  | _, _ => []

/-- The entries of the loops, in order. -/
def entries (arms : List ArmResult) : List Entry :=
  arms.flatMap fun arm =>
    if arm.ok then arm.benches.flatMap (recordEntries arm.arm.name) else []

/-- `per_metric`: the statistics of each arm, for each metric. -/
abbrev PerMetric := List (Text × List (Text × Stats))

/-- `per_metric.setdefault(key, {})[arm_name] = …`. -/
def addStats (perMetric : PerMetric) (e : Entry) : PerMetric :=
  setKey perMetric e.key (setKey ((perMetric.lookup e.key).getD []) e.arm e.stats)

/-- `directions.setdefault(key, …)`. -/
def addDirection (directions : List (Text × Direction)) (e : Entry) : List (Text × Direction) :=
  if (directions.lookup e.key).isSome then directions else directions ++ [(e.key, e.direction)]

/-- A row of the comparison. -/
structure Row where
  metric : Text
  direction : Direction
  baseline : Option Stats
  arms : List (Text × Stats)
  deltas : List (Text × Option ℚ)

/-- What `build_comparison` returns. -/
structure Comparison where
  baseline : Option Text
  baselineOk : Bool
  metrics : PerMetric
  rows : List Row

/-- One turn of the loop over the arms that fills `deltas`. -/
def addDelta (baselineName : Option Text) (baselineOk : Bool) (direction : Direction)
    (baselineStats : Option Stats) (armStats : List (Text × Stats))
    (deltas : List (Text × Option ℚ)) (armName : Text) : List (Text × Option ℚ) :=
  match baselineStats, armStats.lookup armName with
  | some b, some s =>
    if baselineOk ∧ some armName ≠ baselineName then
      setKey deltas armName (deltaPct b.median s.median direction)
    else deltas
  | _, _ => deltas

/-- `build_comparison(arms)`. -/
def buildComparison (arms : List ArmResult) : Comparison :=
  let baselineName := arms.head?.map (·.arm.name)
  let baselineOk := (arms.head?.map (·.ok)).getD false
  let es := entries arms
  let perMetric := es.foldl addStats []
  let directions := es.foldl addDirection []
  { baseline := baselineName
    baselineOk := baselineOk
    metrics := perMetric
    rows := ((perMetric.map (·.1)).mergeSort).map fun key =>
      let armStats := (perMetric.lookup key).getD []
      let direction := (directions.lookup key).getD .neutral
      let baselineStats := baselineName.bind fun name => if name = [] then
        none else armStats.lookup name
      { metric := key
        direction := direction
        baseline := baselineStats
        arms := armStats
        deltas := (arms.map (·.arm.name)).foldl
          (addDelta baselineName baselineOk direction baselineStats armStats) [] } }

/-! ### Arms that are not ok -/

/-- The second result differs from the first in the records of an arm that is not ok at most. -/
def SameOk (r r' : ArmResult) : Prop :=
  r'.arm = r.arm ∧ r'.ok = r.ok ∧ (r.ok = true → r'.benches = r.benches)

section
variable {arms : List ArmResult} {f : ArmResult → ArmResult}

theorem entries_congr (h : ∀ r ∈ arms, SameOk r (f r)) : entries (arms.map f) = entries arms := by
  rw [entries, entries, List.flatMap_map]
  refine List.flatMap_congr fun r hr => ?_
  obtain ⟨harm, hok, hbenches⟩ := h r hr
  rw [harm, hok]
  split_ifs with ho
  · rw [hbenches ho]
  · rfl

/-- The comparison does not read the records of an arm that is not ok. -/
theorem buildComparison_congr (h : ∀ r ∈ arms, SameOk r (f r)) :
    buildComparison (arms.map f) = buildComparison arms := by
  have hname : (arms.map f).map (·.arm.name) = arms.map (·.arm.name) := by
    rw [List.map_map]
    exact List.map_congr_left fun r hr => congrArg Arm.name (h r hr).1
  have hok : (arms.map f).map (·.ok) = arms.map (·.ok) := by
    rw [List.map_map]
    exact List.map_congr_left fun r hr => (h r hr).2.1
  simp only [buildComparison, entries_congr h, ← List.head?_map, hname, hok]

end

theorem mem_entries {arms : List ArmResult} {e : Entry} (h : e ∈ entries arms) :
    ∃ r ∈ arms, r.ok = true ∧ r.arm.name = e.arm := by
  obtain ⟨r, hr, he⟩ := List.mem_flatMap.mp h
  split_ifs at he with hok
  · obtain ⟨record, -, he⟩ := List.mem_flatMap.mp he
    refine ⟨r, hr, hok, ?_⟩
    rw [recordEntries] at he
    split at he
    · obtain ⟨⟨sample, values⟩, -, hs⟩ := List.mem_filterMap.mp he
      simp only [Option.ite_none_left_eq_some, Option.some.injEq] at hs
      rw [← hs.2]
    · cases he
  · cases he

theorem mem_addStats {perMetric : PerMetric} {e : Entry} {m : Text × List (Text × Stats)}
    (h : m ∈ addStats perMetric e) {s : Text × Stats} (hs : s ∈ m.2) :
    s.1 = e.arm ∨ ∃ m' ∈ perMetric, s ∈ m'.2 := by
  obtain ⟨key, stats⟩ := m
  obtain ⟨-, rfl⟩ | hmem := mem_setKey h
  · obtain ⟨hname, -⟩ | hs := mem_setKey (show (s.1, s.2) ∈ setKey _ _ _ from hs)
    · exact .inl hname
    · cases hl : perMetric.lookup e.key with
      | none =>
        rw [hl] at hs
        cases hs
      | some stats =>
        rw [hl] at hs
        exact .inr ⟨_, mem_of_lookup hl, hs⟩
  · exact .inr ⟨_, hmem, hs⟩

theorem mem_foldl_addStats {es : List Entry} : ∀ {perMetric : PerMetric}
    {m : Text × List (Text × Stats)},
    m ∈ es.foldl addStats perMetric → ∀ {s : Text × Stats}, s ∈ m.2 →
    (∃ e ∈ es, s.1 = e.arm) ∨ ∃ m' ∈ perMetric, s ∈ m'.2 := by
  induction es with
  | nil => exact fun h _ hs => .inr ⟨_, h, hs⟩
  | cons e es ih =>
    intro perMetric m h s hs
    obtain ⟨e', he', hname⟩ | ⟨m', hm', hs'⟩ := ih h hs
    · exact .inl ⟨e', List.mem_cons_of_mem _ he', hname⟩
    · exact (mem_addStats hm' hs').imp_left fun hname => ⟨e, List.mem_cons_self, hname⟩

/-- Every statistic of the comparison is of an arm that is ok. -/
theorem mem_metrics {arms : List ArmResult} {m : Text × List (Text × Stats)}
    (h : m ∈ (buildComparison arms).metrics) {s : Text × Stats} (hs : s ∈ m.2) :
    ∃ r ∈ arms, r.ok = true ∧ r.arm.name = s.1 := by
  obtain ⟨e, he, hname⟩ | ⟨m', hm', -⟩ := mem_foldl_addStats h hs
  · rw [hname]
    exact mem_entries he
  · cases hm'

end Glm53Serve.BenchAb
