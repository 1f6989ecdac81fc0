import Glm53Serve.BenchAb.Comparison

/-!
# The comparison is fair

`build_comparison` fills dictionaries that all arms share, metric by metric. What it reports of an
arm is nevertheless a function of the arm's own record, and a delta is one of the records of the
arm and of the first arm.

## What is proved

* `stats_eq` — the statistics of an arm are those of its own samples.
* `row_direction` — the direction of a metric is that of its benchmark and sample.
* `delta_eq` — a delta is the difference of the medians of two records.
* `comparison_fair` — when a delta is reported, what it depends on, and its sign.
-/

namespace Glm53Serve.BenchAb

open Py Json

/-! ### Medians -/

theorem median_isSome {values : List ℚ} (h : values ≠ []) : (median values).isSome := by
  have hlen : 0 < values.mergeSort.length := by
    rw [List.length_mergeSort]
    exact List.length_pos_iff.mpr h
  rw [median]
  split_ifs
  · rw [List.getElem?_eq_getElem (by omega)]
    rfl
  · rw [List.getElem?_eq_getElem (by omega), List.getElem?_eq_getElem (by omega)]
    rfl

/-- The median of samples in another unit. -/
theorem median_scale {k : ℚ} (hk : 0 < k) (values : List ℚ) :
    median (values.map (k * ·)) = (median values).map (k * ·) := by
  have hsort : (values.map (k * ·)).mergeSort = values.mergeSort.map (k * ·) :=
    (List.map_mergeSort fun a _ b _ => decide_eq_decide.mpr (mul_le_mul_iff_right₀ hk).symm).symm
  rw [median, median, hsort]
  simp only [List.length_map, List.getElem?_map]
  split_ifs
  · rfl
  · cases values.mergeSort[values.mergeSort.length / 2 - 1]? with
    | none => rfl
    | some a =>
      cases values.mergeSort[values.mergeSort.length / 2]? with
      | none => rfl
      | some b =>
        simp only [Option.map_some, Option.some.injEq]
        ring

theorem deltaPct_scale {k : ℚ} (hk : 0 < k) (b c : Option ℚ) (direction : Direction) :
    deltaPct (b.map (k * ·)) (c.map (k * ·)) direction = deltaPct b c direction := by
  cases b with
  | none => rfl
  | some b =>
    cases c with
    | none => rfl
    | some c =>
      simp only [deltaPct, Option.map_some]
      by_cases hb : b = 0
      · rw [if_pos hb, if_pos (by rw [hb, mul_zero])]
      · rw [if_neg hb, if_neg (mul_ne_zero hk.ne' hb), abs_mul, abs_of_pos hk, ← mul_sub, ← mul_sub,
          mul_div_mul_left _ _ hk.ne', mul_div_mul_left _ _ hk.ne']

/-- A delta is there where the baseline is not zero. -/
theorem deltaPct_isSome {b c : ℚ} {direction : Direction} :
    (deltaPct (some b) (some c) direction).isSome ↔ b ≠ 0 := by
  simp only [deltaPct]
  split_ifs with hb <;> simp [hb]

theorem pct_pos {x b : ℚ} (hb : b ≠ 0) : 0 < x / |b| * 100 ↔ 0 < x := by
  rw [mul_pos_iff_of_pos_right (by norm_num), div_pos_iff_of_pos_right (abs_pos.mpr hb)]

/-- It is positive where the candidate is better. -/
theorem deltaPct_pos {b c d : ℚ} {direction : Direction}
    (h : deltaPct (some b) (some c) direction = some d) :
    0 < d ↔ if direction = .lower then c < b else b < c := by
  have hb : b ≠ 0 := deltaPct_isSome.mp (by rw [h]; rfl)
  simp only [deltaPct, if_neg hb] at h
  split_ifs at h ⊢ with hlower
  · rw [← Option.some.inj h, pct_pos hb, sub_pos]
  · rw [← Option.some.inj h, pct_pos hb, sub_pos]

/-! ### The samples of an arm -/

/-- The finite numeric values of a list of samples. -/
def finite (values : List (Option ℚ)) : List ℚ := values.filterMap id

/-- The key of a metric. -/
def metricKey (b : Bench) (sample : Text) : Text := b.name ++ '.' :: sample

/-- The samples of a metric in the record of a benchmark that is ok. -/
def Record.samples (r : Record) (key : Text) : List (List ℚ) :=
  if r.ok then
    (r.metrics.getD []).filterMap fun (sample, values) =>
      if metricKey r.bench sample = key ∧ finite values ≠ [] then some (finite values) else none
  else []

/-- The samples of a metric of an arm that is ok, from its last record that has some. -/
def ArmResult.samples (r : ArmResult) (key : Text) : Option (List ℚ) :=
  if r.ok then (r.benches.flatMap (·.samples key)).getLast? else none

/-- The entries of an arm. -/
def ownEntries (r : ArmResult) : List Entry :=
  if r.ok then r.benches.flatMap (recordEntries r.arm.name) else []

theorem entries_eq (arms : List ArmResult) : entries arms = arms.flatMap ownEntries := rfl

/-- The entries of a record for a metric are its samples. -/
theorem recordEntries_samples (name : Text) (r : Record) (key : Text) :
    ((recordEntries name r).filter (·.key = key)).map (·.stats) =
      (r.samples key).map numericStats := by
  rw [recordEntries, Record.samples]
  cases r.ok with
  | false => rfl
  | true =>
    cases r.metrics with
    | none => rfl
    | some samples =>
      rw [if_pos rfl, Option.getD_some]
      simp only [List.filter_filterMap, List.map_filterMap]
      refine List.filterMap_congr fun sv _ => ?_
      by_cases hclean : sv.2.filterMap id = []
      · rw [if_pos hclean, if_neg fun h => h.2 hclean]
        rfl
      rw [if_neg hclean]
      by_cases hkey : r.bench.name ++ '.' :: sv.1 = key
      · rw [if_pos ⟨hkey, hclean⟩, Option.filter_some]
        simp only [hkey, decide_true, ↓reduceIte]
        rfl
      · rw [if_neg fun h => hkey h.1, Option.filter_some]
        simp only [hkey, decide_false, Bool.false_eq_true, ↓reduceIte]
        rfl

/-- The statistics of an arm for a metric. -/
def ArmResult.stats (r : ArmResult) (key : Text) : Option Stats := (r.samples key).map numericStats

/-- The last entry of an arm for a metric has the statistics of its samples. -/
theorem ownEntries_stats (r : ArmResult) (key : Text) :
    (((ownEntries r).filter (·.key = key)).map (·.stats)).getLast? = r.stats key := by
  rw [ownEntries, ArmResult.stats, ArmResult.samples]
  split_ifs
  · rw [List.filter_flatMap, List.map_flatMap, ← List.getLast?_map, List.map_flatMap]
    simp only [recordEntries_samples]
  · rfl

theorem mem_ownEntries {r : ArmResult} {e : Entry} (h : e ∈ ownEntries r) :
    e.arm = r.arm.name ∧ ∃ b sample, e.key = metricKey b sample ∧
      e.direction = (b.direction.lookup sample).getD .neutral := by
  rw [ownEntries] at h
  split_ifs at h
  · obtain ⟨record, -, he⟩ := List.mem_flatMap.mp h
    rw [recordEntries] at he
    split at he
    · obtain ⟨⟨sample, values⟩, -, hs⟩ := List.mem_filterMap.mp he
      simp only [Option.ite_none_left_eq_some, Option.some.injEq] at hs
      rw [← hs.2]
      exact ⟨rfl, record.bench, sample, rfl, rfl⟩
    · exact absurd he List.not_mem_nil
  · exact absurd h List.not_mem_nil

/-- Where the names are distinct, the entries of an arm's name are its own. -/
theorem filter_entries {arms : List ArmResult} (hnames : (arms.map (·.arm.name)).Nodup)
    {r : ArmResult}
    (hr : r ∈ arms) (key : Text) :
    (entries arms).filter (fun e => e.key = key ∧ e.arm = r.arm.name) =
      (ownEntries r).filter (·.key = key) := by
  have hown : (ownEntries r).filter (fun e => e.key = key ∧ e.arm = r.arm.name) =
      (ownEntries r).filter (·.key = key) :=
    List.filter_congr fun e he => by simp [(mem_ownEntries he).1]
  have hother : ∀ r' : ArmResult, r'.arm.name ≠ r.arm.name →
      (ownEntries r').filter (fun e => e.key = key ∧ e.arm = r.arm.name) = [] := fun r' hne => by
    refine List.filter_eq_nil_iff.mpr fun e he h => ?_
    rw [decide_eq_true_eq, (mem_ownEntries he).1] at h
    exact hne h.2
  obtain ⟨before, after, rfl⟩ := List.append_of_mem hr
  rw [List.map_append, List.map_cons, List.nodup_middle, List.nodup_cons, List.mem_append] at hnames
  have hbefore : ∀ r' ∈ before, r'.arm.name ≠ r.arm.name := fun r' hr' h =>
    hnames.1 (.inl (h ▸ List.mem_map_of_mem hr'))
  have hafter : ∀ r' ∈ after, r'.arm.name ≠ r.arm.name := fun r' hr' h =>
    hnames.1 (.inr (h ▸ List.mem_map_of_mem hr'))
  rw [entries_eq, List.filter_flatMap, List.flatMap_append, List.flatMap_cons, hown,
    List.flatMap_eq_nil_iff.mpr fun r' hr' => hother r' (hbefore r' hr'),
    List.flatMap_eq_nil_iff.mpr fun r' hr' => hother r' (hafter r' hr'), List.nil_append,
      List.append_nil]

/-! ### The dictionaries -/

/-- `per_metric[key][name]`. -/
def statsAt (perMetric : PerMetric) (key name : Text) : Option Stats :=
  (perMetric.lookup key).bind fun armStats => armStats.lookup name

theorem statsAt_addStats (perMetric : PerMetric) (e : Entry) (key name : Text) :
    statsAt (addStats perMetric e) key name =
      if e.key = key ∧ e.arm = name then some e.stats else statsAt perMetric key name := by
  rw [statsAt, addStats]
  by_cases hkey : e.key = key
  · subst hkey
    rw [lookup_setKey_self, Option.bind_some]
    by_cases hname : e.arm = name
    · rw [if_pos ⟨rfl, hname⟩, hname, lookup_setKey_self]
    · rw [if_neg fun h => hname h.2, lookup_setKey_of_ne _ (Ne.symm hname), statsAt]
      cases perMetric.lookup e.key <;> rfl
  · rw [if_neg fun h => hkey h.1, lookup_setKey_of_ne _ (Ne.symm hkey), statsAt]

/-- The dictionary keeps the last statistics of an arm for a metric. -/
theorem statsAt_foldl (es : List Entry) (key name : Text) :
    statsAt (es.foldl addStats []) key name =
    ((es.filter (fun e => e.key = key ∧ e.arm = name)).map (·.stats)).getLast? := by
  induction es using List.reverseRecOn with
  | nil => rfl
  | append_singleton es e ih =>
    rw [List.foldl_append, List.foldl_cons, List.foldl_nil, statsAt_addStats, List.filter_append,
      List.map_append]
    by_cases h : e.key = key ∧ e.arm = name
    · rw [if_pos h, List.filter_singleton, decide_eq_true h]
      simp
    · rw [if_neg h, List.filter_singleton, decide_eq_false h, ih]
      simp

theorem lookup_addDirection (directions : List (Text × Direction)) (e : Entry) (key : Text) :
    (addDirection directions e).lookup key =
      (directions.lookup key).or (if e.key = key then some e.direction else none) := by
  rw [addDirection]
  by_cases hkey : e.key = key
  · subst hkey
    rw [if_pos rfl]
    cases h : directions.lookup e.key with
    | none =>
      rw [Option.isSome_none, if_neg Bool.false_ne_true, List.lookup_append, h]
      simp
    | some d => rw [Option.isSome_some, if_pos rfl, h, Option.some_or]
  · rw [if_neg hkey, Option.or_none]
    split_ifs
    · rfl
    · rw [List.lookup_append, List.lookup_cons, beq_false_of_ne (Ne.symm hkey), List.lookup_nil,
        Option.or_none]

/-- The dictionary keeps the first direction of a metric. -/
theorem lookup_foldl_addDirection (es : List Entry) (key : Text)
    (directions : List (Text × Direction)) :
    (es.foldl addDirection directions).lookup key =
      (directions.lookup key).or ((es.find? (·.key = key)).map (·.direction)) := by
  induction es generalizing directions with
  | nil => exact (Option.or_none).symm
  | cons e es ih =>
    rw [List.foldl_cons, ih, lookup_addDirection, Option.or_assoc, List.find?_cons]
    by_cases hkey : e.key = key
    · simp [hkey]
    · simp [hkey]

/-- The direction of the benchmark and the sample in a key. -/
def metricDirection (key : Text) : Direction :=
  match Bench.all.find? (·.name = key.takeWhile (· ≠ '.')) with
  | some b => (b.direction.lookup (key.dropWhile (· ≠ '.')).tail).getD .neutral
  | none => .neutral

/-- No name of a benchmark has a dot, so the key determines both. -/
theorem metricDirection_key (b : Bench) (sample : Text) :
    metricDirection (metricKey b sample) = (b.direction.lookup sample).getD .neutral := by
  cases b <;> rfl

/-- What a turn of the loop over the arms stores for an arm, where it stores something. -/
def storedDelta (baselineName : Option Text) (baselineOk : Bool) (direction : Direction)
    (baselineStats : Option Stats) (armStats : List (Text × Stats)) (armName : Text) :
    Option (Option ℚ) :=
  match baselineStats, armStats.lookup armName with
  | some b, some s =>
    if baselineOk ∧ some armName ≠ baselineName then
      some (deltaPct b.median s.median direction) else none
  | _, _ => none

section

variable (baselineName : Option Text) (baselineOk : Bool) (direction : Direction)
    (baselineStats : Option Stats)
  (armStats : List (Text × Stats))

theorem addDelta_eq (deltas : List (Text × Option ℚ)) (armName : Text) :
    addDelta baselineName baselineOk direction baselineStats armStats deltas armName =
      match storedDelta baselineName baselineOk direction baselineStats armStats armName with
      | some d => setKey deltas armName d
      | none => deltas := by
  unfold addDelta storedDelta
  cases baselineStats with
  | none => rfl
  | some b =>
    cases armStats.lookup armName with
    | none => rfl
    | some s =>
      by_cases hok : baselineOk ∧ some armName ≠ baselineName
      · simp only [if_pos hok]
      · simp only [if_neg hok]

theorem lookup_addDelta (deltas : List (Text × Option ℚ)) (armName name : Text) :
    (addDelta baselineName baselineOk direction baselineStats armStats deltas armName).lookup name =
      if armName = name then
        (storedDelta baselineName baselineOk direction baselineStats armStats name).or
          (deltas.lookup name)
      else deltas.lookup name := by
  rw [addDelta_eq]
  by_cases hname : armName = name
  · subst hname
    rw [if_pos rfl]
    cases storedDelta baselineName baselineOk direction baselineStats armStats armName with
    | none => rfl
    | some d => exact lookup_setKey_self _ _ _
  · rw [if_neg hname]
    split
    · exact lookup_setKey_of_ne _ (Ne.symm hname) _
    · rfl

theorem lookup_foldl_addDelta (names : List Text) (deltas : List (Text × Option ℚ)) (name : Text) :
    (names.foldl (addDelta baselineName baselineOk direction baselineStats armStats)
      deltas).lookup name =
      if name ∈ names then
        (storedDelta baselineName baselineOk direction baselineStats armStats name).or
          (deltas.lookup name)
      else deltas.lookup name := by
  induction names generalizing deltas with
  | nil => rfl
  | cons n names ih =>
    rw [List.foldl_cons, ih, lookup_addDelta]
    by_cases hn : n = name
    · subst hn
      rw [if_pos rfl, if_pos List.mem_cons_self]
      split_ifs
      · cases storedDelta baselineName baselineOk direction baselineStats armStats n <;> rfl
      · rfl
    · simp only [if_neg hn, List.mem_cons, Ne.symm hn, false_or]

end

/-! ### The report -/

namespace Comparison

variable (c : Comparison)

/-- The statistics reported for an arm and a metric. -/
def stats (key name : Text) : Option Stats := statsAt c.metrics key name

/-- The row of a metric. -/
def row (key : Text) : Option Row := c.rows.find? (·.metric = key)

/-- The delta reported for an arm and a metric. -/
def delta (key name : Text) : Option ℚ := (c.row key).bind fun row => (row.deltas.lookup name).join

end Comparison

section

variable {arms : List ArmResult} (hnames : (arms.map (·.arm.name)).Nodup) {r : ArmResult}
    (hr : r ∈ arms)

include hnames hr

/-- The statistics of an arm are those of its own samples. -/
theorem stats_eq (key : Text) : (buildComparison arms).stats key r.arm.name = r.stats key := by
  rw [← ownEntries_stats, ← filter_entries hnames hr]
  exact statsAt_foldl _ _ _

end

/-- A list of rows, one for each key, has the row of a key. -/
theorem find?_map_row {keys : List Text} {f : Text → Row} (hf : ∀ k, (f k).metric = k)
    (key : Text) :
    (keys.map f).find? (·.metric = key) = if key ∈ keys then some (f key) else none := by
  induction keys with
  | nil => rfl
  | cons k keys ih =>
    rw [List.map_cons, List.find?_cons, hf]
    by_cases hk : k = key
    · simp [hk]
    · simp [hk, Ne.symm hk, ih]

theorem mem_keys_iff {fields : PerMetric} {key : Text} : key ∈ fields.map (·.1) ↔
    (fields.lookup key).isSome := by
  induction fields with
  | nil => simp
  | cons f fields ih =>
    rw [List.map_cons, List.mem_cons, List.lookup_cons]
    by_cases hk : key = f.1
    · simp [hk]
    · simp only [hk, false_or, beq_false_of_ne hk]
      exact ih

theorem exists_entry {es : List Entry} {key : Text}
    (h : ((es.foldl addStats []).lookup key).isSome) :
    ∃ e ∈ es, e.key = key := by
  induction es using List.reverseRecOn with
  | nil => exact absurd h Bool.false_ne_true
  | append_singleton es e ih =>
    rw [List.foldl_append, List.foldl_cons, List.foldl_nil, addStats] at h
    by_cases hkey : e.key = key
    · exact ⟨e, List.mem_append_right _ (List.mem_singleton_self e), hkey⟩
    · rw [lookup_setKey_of_ne _ (Ne.symm hkey)] at h
      obtain ⟨e', he', hkey'⟩ := ih h
      exact ⟨e', List.mem_append_left _ he', hkey'⟩

/-- The direction of a metric is that of its benchmark and sample. -/
theorem lookup_directions {arms : List ArmResult} {key : Text}
    (h : (((entries arms).foldl addStats []).lookup key).isSome) :
    (((entries arms).foldl addDirection []).lookup key).getD .neutral = metricDirection key := by
  obtain ⟨e, he, hkey⟩ := exists_entry h
  rw [lookup_foldl_addDirection, List.lookup_nil, Option.none_or]
  cases hfind : (entries arms).find? (·.key = key) with
  | none => exact absurd (decide_eq_true hkey) (List.find?_eq_none.mp hfind e he)
  | some e' =>
    obtain ⟨r, -, hr⟩ := List.mem_flatMap.mp (List.mem_of_find?_eq_some hfind)
    obtain ⟨-, b, sample, hkey', hdirection⟩ := mem_ownEntries hr
    have hfound := List.find?_some hfind
    rw [decide_eq_true_eq] at hfound
    rw [Option.map_some, Option.getD_some, hdirection, ← metricDirection_key, ← hkey', hfound]

/-- The row of a metric. -/
theorem row_eq {base : ArmResult} {rest : List ArmResult} (hname : base.arm.name ≠ [])
    (key : Text) :
    (buildComparison (base :: rest)).row key =
      ((buildComparison (base :: rest)).metrics.lookup key).map fun armStats =>
        { metric := key
          direction := metricDirection key
          baseline := armStats.lookup base.arm.name
          arms := armStats
          deltas := ((base :: rest).map (·.arm.name)).foldl
            (addDelta (some base.arm.name) base.ok (metricDirection key)
              (armStats.lookup base.arm.name) armStats) [] } := by
  simp only [Comparison.row, buildComparison]
  rw [find?_map_row fun _ => rfl]
  simp only [List.mem_mergeSort, mem_keys_iff, List.head?_cons, Option.map_some, Option.bind_some,
    if_neg hname]
  cases hlookup : ((entries (base :: rest)).foldl addStats []).lookup key with
  | none => rfl
  | some armStats =>
    have hsome : (((entries (base :: rest)).foldl addStats []).lookup key).isSome := by
      rw [hlookup]
      rfl
    rw [Option.isSome_some, if_pos rfl, Option.map_some, lookup_directions hsome]
    rfl

/-- The delta of an arm to the first arm. -/
def ArmResult.deltaTo (r base : ArmResult) (key : Text) : Option ℚ :=
  if r.arm.name = base.arm.name then none
  else (base.stats key).bind fun b => (r.stats key).bind fun s =>
    deltaPct b.median s.median (metricDirection key)

theorem ok_of_stats {r : ArmResult} {key : Text} {s : Stats} (h : r.stats key = some s) :
    r.ok = true := by
  by_contra hok
  rw [ArmResult.stats, ArmResult.samples, if_neg hok] at h
  exact absurd h nofun

/-- A delta is the difference of the medians of two records. -/
theorem delta_eq {base : ArmResult} {rest : List ArmResult} (hname : base.arm.name ≠ [])
    (hnames : ((base :: rest).map (·.arm.name)).Nodup) {r : ArmResult} (hr : r ∈ base :: rest)
    (key : Text) :
    (buildComparison (base :: rest)).delta key r.arm.name = r.deltaTo base key := by
  have hbase := stats_eq hnames List.mem_cons_self key
  have hown := stats_eq hnames hr key
  rw [Comparison.stats, statsAt] at hbase hown
  rw [Comparison.delta, row_eq hname, ArmResult.deltaTo]
  cases hlookup : (buildComparison (base :: rest)).metrics.lookup key with
  | none =>
    rw [hlookup] at hbase
    rw [← hbase]
    simp
  | some armStats =>
    rw [hlookup, Option.bind_some] at hbase hown
    rw [Option.map_some, Option.bind_some, lookup_foldl_addDelta, if_pos (List.mem_map_of_mem hr),
      List.lookup_nil,
      Option.or_none]
    unfold storedDelta
    rw [hbase, hown]
    cases hb : base.stats key with
    | none => simp
    | some b =>
      cases r.stats key with
      | none => simp
      | some s => simp [ok_of_stats hb, apply_ite Option.join]

/-! ### Samples in another unit -/

/-- The record with all samples multiplied. -/
def Record.scale (k : ℚ) (r : Record) : Record :=
  { r with metrics := r.metrics.map fun samples => samples.map fun sv =>
    (sv.1, sv.2.map fun v => v.map (k * ·)) }

/-- The arm's record with all samples multiplied. -/
def ArmResult.scale (k : ℚ) (r : ArmResult) : ArmResult :=
  { r with benches := r.benches.map (Record.scale k) }

theorem finite_scale (k : ℚ) (values : List (Option ℚ)) :
    finite (values.map fun v => v.map (k * ·)) = (finite values).map (k * ·) := by
  rw [finite, finite, List.filterMap_map, List.map_filterMap]
  rfl

theorem Record.samples_scale (k : ℚ) (r : Record) (key : Text) :
    (r.scale k).samples key = (r.samples key).map (List.map (k * ·)) := by
  cases hok : r.ok with
  | false => simp [Record.samples, Record.scale, hok]
  | true =>
    cases hmetrics : r.metrics with
    | none => simp [Record.samples, Record.scale, hok, hmetrics]
    | some samples =>
      simp only [Record.samples, Record.scale, hok, hmetrics, ↓reduceIte, Option.map_some,
        Option.getD_some,
        List.filterMap_map, List.map_filterMap, Function.comp_def, finite_scale]
      refine List.filterMap_congr fun sv _ => ?_
      have hempty : (finite sv.2).map (k * ·) ≠ [] ↔ finite sv.2 ≠ [] := List.map_eq_nil_iff.not
      simp only [hempty]
      split_ifs <;> rfl

theorem ArmResult.samples_scale (k : ℚ) (r : ArmResult) (key : Text) :
    (r.scale k).samples key = (r.samples key).map (List.map (k * ·)) := by
  have hok : (r.scale k).ok = r.ok := rfl
  have hbenches : (r.scale k).benches = r.benches.map (Record.scale k) := rfl
  rw [ArmResult.samples, ArmResult.samples, hok, hbenches]
  split_ifs
  · rw [List.flatMap_map, ← List.getLast?_map, List.map_flatMap]
    simp only [Record.samples_scale]
  · rfl

theorem ArmResult.median_scale {k : ℚ} (hk : 0 < k) (r : ArmResult) (key : Text) :
    ((r.scale k).stats key).map (·.median) = ((r.stats key).map (·.median)).map fun m =>
      m.map (k * ·) := by
  rw [ArmResult.stats, ArmResult.stats, ArmResult.samples_scale]
  cases r.samples key with
  | none => rfl
  | some values => exact congrArg some (Glm53Serve.BenchAb.median_scale hk values)

/-- The delta by the medians. -/
theorem ArmResult.deltaTo_eq (r base : ArmResult) (key : Text) : r.deltaTo base key =
    if r.arm.name = base.arm.name then none
    else ((base.stats key).map (·.median)).bind fun b =>
      ((r.stats key).map (·.median)).bind fun s =>
      deltaPct b s (metricDirection key) := by
  rw [ArmResult.deltaTo]
  cases base.stats key with
  | none => rfl
  | some b =>
    cases r.stats key with
    | none => rfl
    | some s => rfl

theorem ArmResult.deltaTo_scale {k : ℚ} (hk : 0 < k) (r base : ArmResult) (key : Text) :
    (r.scale k).deltaTo (base.scale k) key = r.deltaTo base key := by
  rw [deltaTo_eq, deltaTo_eq, ArmResult.median_scale hk, ArmResult.median_scale hk]
  cases (base.stats key).map (·.median) with
  | none => rfl
  | some b =>
    cases (r.stats key).map (·.median) with
    | none => rfl
    | some s => simp only [Option.map_some, Option.bind_some, deltaPct_scale hk, ArmResult.scale]

/-! ### Fairness -/

/-- The samples of an arm are the finite ones of a benchmark that is ok, of an arm that is ok. -/
theorem ArmResult.samples_spec {r : ArmResult} {key : Text} {values : List ℚ}
    (h : r.samples key = some values) :
    r.ok = true ∧ values ≠ [] ∧ ∃ record ∈ r.benches, record.ok = true ∧
      ∃ samples, record.metrics = some samples ∧
      ∃ sv ∈ samples, metricKey record.bench sv.1 = key ∧ values = finite sv.2 := by
  rw [ArmResult.samples] at h
  by_cases hok : r.ok = true
  · rw [if_pos hok] at h
    obtain ⟨record, hrecord, hvalues⟩ := List.mem_flatMap.mp (List.mem_of_getLast? h)
    rw [Record.samples] at hvalues
    by_cases hrok : record.ok = true
    · rw [if_pos hrok] at hvalues
      obtain ⟨⟨sample, xs⟩, hsv, hif⟩ := List.mem_filterMap.mp hvalues
      cases hmetrics : record.metrics with
      | none =>
        rw [hmetrics] at hsv
        exact absurd hsv List.not_mem_nil
      | some samples =>
        rw [hmetrics, Option.getD_some] at hsv
        obtain ⟨hkey, hxs⟩ := Option.ite_none_right_eq_some.mp hif
        cases hxs
        exact ⟨hok, hkey.2, record, hrecord, hrok, samples, hmetrics, ⟨sample, xs⟩, hsv,
          hkey.1, rfl⟩
    · rw [if_neg hrok] at hvalues
      exact absurd hvalues List.not_mem_nil
  · rw [if_neg hok] at h
    exact absurd h nofun

/-- When an arm has a delta. -/
theorem ArmResult.deltaTo_isSome {r base : ArmResult} {key : Text} : (r.deltaTo base key).isSome ↔
    r.arm.name ≠ base.arm.name ∧ ∃ bs ss, base.samples key = some bs ∧ r.samples key = some ss ∧
      median bs ≠ some 0 := by
  rw [deltaTo, ArmResult.stats, ArmResult.stats]
  by_cases hname : r.arm.name = base.arm.name
  · simp [hname]
  rw [if_neg hname]
  cases hb : base.samples key with
  | none => simp
  | some bs =>
    cases hs : r.samples key with
    | none => simp
    | some ss =>
      obtain ⟨b, hbm⟩ := Option.isSome_iff_exists.mp (median_isSome (samples_spec hb).2.1)
      obtain ⟨s, hsm⟩ := Option.isSome_iff_exists.mp (median_isSome (samples_spec hs).2.1)
      simp only [Option.map_some, Option.bind_some, numericStats, hbm, hsm, deltaPct_isSome]
      simp [hname, hbm]

/-- When the delta of an arm is positive. -/
theorem ArmResult.deltaTo_pos {r base : ArmResult} {key : Text} {d : ℚ}
    (h : r.deltaTo base key = some d)
    {bs ss : List ℚ} (hb : base.samples key = some bs) (hs : r.samples key = some ss) {b s : ℚ}
    (hbm : median bs = some b) (hsm : median ss = some s) :
    0 < d ↔ if metricDirection key = .lower then s < b else b < s := by
  rw [deltaTo, ArmResult.stats, ArmResult.stats, hb, hs] at h
  split_ifs at h with hname
  simp only [Option.map_some, Option.bind_some, numericStats, hbm, hsm] at h
  exact deltaPct_pos h

/-- What the comparison promises of an arm and a metric, `base` being the first arm. -/
structure Fair (base : ArmResult) (rest : List ArmResult) (r : ArmResult) (key : Text) : Prop where
  /-- The statistics are those of samples of the arm. -/
  own : (buildComparison (base :: rest)).stats key r.arm.name = (r.samples key).map numericStats
  /-- The samples are the finite ones of a benchmark that is ok, of an arm that is ok. -/
  samples : ∀ values, r.samples key = some values → r.ok = true ∧ values ≠ [] ∧
    ∃ record ∈ r.benches, record.ok = true ∧ ∃ samples, record.metrics = some samples ∧
      ∃ sv ∈ samples, metricKey record.bench sv.1 = key ∧ values = finite sv.2
  /-- When a delta is reported. -/
  reported : ((buildComparison (base :: rest)).delta key r.arm.name).isSome ↔
    base.ok = true ∧ r.ok = true ∧ r ≠ base ∧
      ∃ bs ss, base.samples key = some bs ∧ r.samples key = some ss ∧ median bs ≠ some 0
  /-- The direction of a metric is that of its benchmark and sample. -/
  direction : ∀ row, (buildComparison (base :: rest)).row key = some row →
    ∀ b sample, key = metricKey b sample → row.direction = (b.direction.lookup sample).getD .neutral
  /-- A delta is positive where the median of the arm is better. -/
  sign : ∀ row d, (buildComparison (base :: rest)).row key = some row →
    (buildComparison (base :: rest)).delta key r.arm.name = some d →
    ∀ bs ss b s, base.samples key = some bs → r.samples key = some ss → median bs = some b →
      median ss = some s →
      (row.direction = .lower → (0 < d ↔ s < b)) ∧ (row.direction = .higher → (0 < d ↔ b < s))
  /-- No other arm changes the statistics. -/
  others : ∀ arms : List ArmResult, (arms.map (·.arm.name)).Nodup → r ∈ arms →
    (buildComparison arms).stats key r.arm.name =
      (buildComparison (base :: rest)).stats key r.arm.name
  /-- No other arm but the first changes the delta. -/
  othersDelta : ∀ rest' : List ArmResult, ((base :: rest').map (·.arm.name)).Nodup →
    r ∈ base :: rest' →
    (buildComparison (base :: rest')).delta key r.arm.name =
      (buildComparison (base :: rest)).delta key r.arm.name
  /-- The unit of the samples does not change the delta. -/
  unit : ∀ k : ℚ, 0 < k → ∀ rest' : List ArmResult,
    ((base.scale k :: rest').map (·.arm.name)).Nodup →
    r.scale k ∈ base.scale k :: rest' →
    (buildComparison (base.scale k :: rest')).delta key r.arm.name =
      (buildComparison (base :: rest)).delta key r.arm.name

/-- The comparison is fair. Of an arm without a name, which `parse_arm` refuses, it takes no
baseline. -/
theorem comparison_fair {base : ArmResult} {rest : List ArmResult} (hname : base.arm.name ≠ [])
    (hnames : ((base :: rest).map (·.arm.name)).Nodup) {r : ArmResult} (hr : r ∈ base :: rest)
    (key : Text) :
    Fair base rest r key where
  own := stats_eq hnames hr key
  samples _ h := ArmResult.samples_spec h
  reported := by
    have hne : r.arm.name ≠ base.arm.name ↔ r ≠ base :=
      ⟨fun h heq => h (heq ▸ rfl), fun h heq =>
        h (List.inj_on_of_nodup_map hnames hr List.mem_cons_self heq)⟩
    rw [delta_eq hname hnames hr, ArmResult.deltaTo_isSome, hne]
    constructor
    · rintro ⟨hne, bs, ss, hb, hs, hzero⟩
      exact ⟨(ArmResult.samples_spec hb).1, (ArmResult.samples_spec hs).1, hne, bs, ss,
        hb, hs, hzero⟩
    · rintro ⟨-, -, hne, hsamples⟩
      exact ⟨hne, hsamples⟩
  direction row h b sample hkey := by
    rw [row_eq hname] at h
    obtain ⟨armStats, -, rfl⟩ := Option.map_eq_some_iff.mp h
    rw [hkey, metricDirection_key]
  sign row d hrow hd bs ss b s hb hs hbm hsm := by
    rw [row_eq hname] at hrow
    obtain ⟨armStats, -, rfl⟩ := Option.map_eq_some_iff.mp hrow
    rw [delta_eq hname hnames hr] at hd
    have hpos := ArmResult.deltaTo_pos hd hb hs hbm hsm
    refine ⟨fun hlower => ?_, fun hhigher => ?_⟩
    · rwa [if_pos hlower] at hpos
    · have hnot : metricDirection key ≠ .lower := fun h => absurd (hhigher.symm.trans h) nofun
      rwa [if_neg hnot] at hpos
  others arms hnames' hr' := by rw [stats_eq hnames' hr', stats_eq hnames hr]
  othersDelta rest' hnames' hr' := by rw [delta_eq hname hnames' hr', delta_eq hname hnames hr]
  unit k hk rest' hnames' hr' := by
    have hscaled : (base.scale k).arm.name ≠ [] := hname
    have hscale := delta_eq hscaled hnames' hr' key
    rw [ArmResult.deltaTo_scale hk] at hscale
    rw [delta_eq hname hnames hr]
    exact hscale

/-- An arm that ran the short chat. -/
def chatArm (name : Text) (ttft : List ℚ) : ArmResult where
  arm := ⟨name, [], name⟩
  benches := [{
    bench := .shortChat
    artifact := []
    log := []
    ok := true
    exitCode := none
    metrics := some [("ttft_s".toList, ttft.map some)] }]
  error := none
  ok := true

theorem comparison_fair_chat :
    Fair (chatArm "baseline".toList [2, 1]) [chatArm "candidate".toList [1]]
      (chatArm "candidate".toList [1])
      (metricKey .shortChat "ttft_s".toList) :=
  comparison_fair (by decide) (by decide) (List.mem_cons_of_mem _ List.mem_cons_self) _

end Glm53Serve.BenchAb
