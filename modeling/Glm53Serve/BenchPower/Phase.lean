import Mathlib
import Glm53Serve.BenchPower.Energy
import Glm53Serve.Lib.Rank

/-!
# The summary of a phase

`summarize_phase` of `tools/bench-power.py` turns the samples of a phase into one entry
a device, with its energy and how it was found, and into totals of the GPUs.

## The model

Times and readings are exact rationals, and so are the results before they are rounded.
A field of a device is `none` if it is absent or not a number: the code treats the two
alike, except for the counter, which is a number wherever it is there. Dictionaries are
lists of entries in the order of insertion; a value that a dictionary may lack is an
option.

## What is proved

* `wattPoints_eq_nil_iff` — every device seen has power points, if only of missing readings.
* `honestTotals_iff` — the totals are honest exactly if every device reports something and,
  where a GPU reports power, every GPU has a source of energy: the branch without a
  method is never taken.
-/

namespace Glm53Serve.BenchPower

/-! ### Samples -/

/-- A device record of a sample. -/
structure Device where
  key : String
  group : String
  w : Option ℚ
  mj : Option ℚ
  util : Option ℚ
  temp : Option ℚ
  smMhz : Option ℚ
  memMib : Option ℚ
  deriving DecidableEq

/-- A sample record. -/
structure Sample where
  t : ℚ
  devices : List Device
  deriving DecidableEq

/-- What `_column` collects of one device. -/
structure Column where
  group : String
  w : List (Option ℚ)
  util : List (Option ℚ)
  temp : List (Option ℚ)
  smMhz : List (Option ℚ)
  memMib : List (Option ℚ)
  deriving DecidableEq

/-- `{"group": device["group"]}`. -/
def Column.new (group : String) : Column := ⟨group, [], [], [], [], []⟩

/-- The values of one more record. -/
def Column.append (c : Column) (d : Device) : Column where
  group := c.group
  w := c.w ++ [d.w]
  util := c.util ++ [d.util]
  temp := c.temp ++ [d.temp]
  smMhz := c.smMhz ++ [d.smMhz]
  memMib := c.memMib ++ [d.memMib]

/-- The columns with one more record, under its key. -/
def addDevice (columns : List (String × Column)) (d : Device) : List (String × Column) :=
  match columns with
  | [] => [(d.key, (Column.new d.group).append d)]
  | (key, c) :: rest =>
    if key = d.key then (key, c.append d) :: rest else (key, c) :: addDevice rest d

/-- `_column(samples)`. -/
def column (samples : List Sample) : List (String × Column) :=
  (samples.flatMap (·.devices)).foldl addDevice []

/-- `_pairs_for(samples, key)[0]`: the power series of a device. -/
def wattPoints (samples : List Sample) (key : String) : List (ℚ × Option ℚ) :=
  samples.flatMap fun s => (s.devices.filter (·.key = key)).map fun d => (s.t, d.w)

/-- `_pairs_for(samples, key)[1]`: the counter series of a device. -/
def mjPoints (samples : List Sample) (key : String) : List (ℚ × Option ℚ) :=
  samples.flatMap fun s => (s.devices.filter (·.key = key)).map fun d => (s.t, d.mj)

/-- The points whose value is a number. -/
def numericPoints (points : List (ℚ × Option ℚ)) : List (ℚ × ℚ) :=
  points.filterMap fun p => p.2.map (p.1, ·)

/-! ### Statistics -/

/-- `round(x, digits)`: to the nearest, and to even between two. -/
def roundTo (digits : ℕ) (x : ℚ) : ℚ :=
  let y := x * 10 ^ digits
  let floor := ⌊y⌋
  let up := if y - floor < 1 / 2 then 0 else if 1 / 2 < y - floor then 1 else floor % 2
  (floor + up) / 10 ^ digits

/-- `_mean(values)`. -/
def mean (values : List ℚ) : Option ℚ :=
  if values = [] then none else some (values.sum / values.length)

/-- `percentile(values, fraction)`. -/
def percentile (values : List ℚ) (fraction : ℚ) : Option ℚ :=
  let ordered := Rank.ranked values
  ordered[min (ordered.length - 1) (⌈fraction * ordered.length⌉ - 1).toNat]?

/-- What `series_stats` returns; of no values only their number. -/
structure SeriesStats where
  samples : ℕ
  meanW : Option ℚ
  medianW : Option ℚ
  minW : Option ℚ
  maxW : Option ℚ
  p95W : Option ℚ
  deriving DecidableEq

/-- `series_stats(values)`. -/
def seriesStats (values : List ℚ) : SeriesStats where
  samples := values.length
  meanW := (mean values).map (roundTo 3)
  medianW := (Rank.median values).map (roundTo 3)
  minW := values.min?.map (roundTo 3)
  maxW := values.max?.map (roundTo 3)
  p95W := (percentile values (95 / 100)).map (roundTo 3)

/-! ### The phase -/

/-- `energy_method`. -/
inductive EnergyMethod where
  | counter
  | trapezoid
  | none
  deriving DecidableEq

/-- The entry of a device. -/
structure Entry where
  group : String
  stats : SeriesStats
  energyMethod : EnergyMethod
  energyJ : Option ℚ
  trapezoidEnergyJ : Option ℚ
  energyWh : Option ℚ
  excludedGapSeconds : ℚ
  excludedGaps : ℕ
  meanUtilPct : Option ℚ
  meanTempC : Option ℚ
  maxTempC : Option ℚ
  meanClockSmMhz : Option ℚ
  meanMemMib : Option ℚ
  deriving DecidableEq

/-- The body of the loop over the columns: the entry of one device. -/
def deviceEntry (maxGap : ℚ) (samples : List Sample) (key : String) (c : Column) : Entry :=
  let watts := wattPoints samples key
  let (traj, excludedS, excludedN) := trapezoidEnergy maxGap (numericPoints watts)
  let (method, energy, trapezoid) :=
    match counterEnergy (mjPoints samples key) with
    | some counted => (EnergyMethod.counter, some (roundTo 1 counted), some (roundTo 1 traj))
    | none =>
      -- the points themselves, not only those that are numbers
      if watts ≠ [] then (EnergyMethod.trapezoid, some (roundTo 1 traj), none)
      else (EnergyMethod.none, none, none)
  { group := c.group
    stats := seriesStats (c.w.filterMap id)
    energyMethod := method
    energyJ := energy
    trapezoidEnergyJ := trapezoid
    energyWh := energy.map fun j => roundTo 4 (j / 3600)
    excludedGapSeconds := roundTo 3 excludedS
    excludedGaps := excludedN
    meanUtilPct := (mean (c.util.filterMap id)).map (roundTo 2)
    meanTempC := (mean (c.temp.filterMap id)).map (roundTo 1)
    maxTempC := (c.temp.filterMap id).max?.map (roundTo 1)
    meanClockSmMhz := (mean (c.smMhz.filterMap id)).map (roundTo 1)
    meanMemMib := (mean (c.memMib.filterMap id)).map (roundTo 1) }

/-- The variables of the loop over the columns. -/
structure Totals where
  gpuEntries : List (String × Entry)
  systemEntries : List (String × Entry)
  totalEnergyJ : ℚ
  totalEnergyKnown : Bool
  deriving DecidableEq

/-- The rest of the body of the loop: what it does with the entry of a device. -/
def Totals.add (acc : Totals) (key : String) (e : Entry) : Totals where
  gpuEntries := if e.group = "gpu" then acc.gpuEntries ++ [(key, e)] else acc.gpuEntries
  systemEntries := if e.group = "gpu" then acc.systemEntries else acc.systemEntries ++ [(key, e)]
  totalEnergyJ :=
    if e.group = "gpu" then acc.totalEnergyJ + e.energyJ.getD 0 else acc.totalEnergyJ
  totalEnergyKnown := acc.totalEnergyKnown && decide (e.energyMethod ≠ .none)

/-- The loop over the columns. -/
def totals (maxGap : ℚ) (samples : List Sample) : Totals :=
  (column samples).foldl (fun acc p => acc.add p.1 (deviceEntry maxGap samples p.1 p.2))
    ⟨[], [], 0, true⟩

/-- The powers that the GPUs of a sample report. -/
def gpuWatts (s : Sample) : List ℚ :=
  s.devices.filterMap fun d => if d.group = "gpu" then d.w else none

/-- `total_series`: the power of all GPUs in the samples that have any. -/
def totalSeries (samples : List Sample) : List (ℚ × ℚ) :=
  samples.filterMap fun s => if gpuWatts s ≠ [] then some (s.t, (gpuWatts s).sum) else none

/-- `total` of a phase. -/
structure PhaseTotal where
  stats : SeriesStats
  energyJ : Option ℚ
  energyWh : Option ℚ
  deriving DecidableEq

/-- What `summarize_phase` returns. -/
structure Phase where
  startT : ℚ
  endT : ℚ
  durationS : ℚ
  maxGapS : ℚ
  gpus : List (String × Entry)
  total : PhaseTotal
  system : List (String × Entry)
  deriving DecidableEq

/-- `total`, from the loop and the series of the sums. -/
def phaseTotal (t : Totals) (series : List (ℚ × ℚ)) : PhaseTotal :=
  let stats := seriesStats (series.map (·.2))
  let known := decide (stats.samples ≠ 0) && t.totalEnergyKnown
  { stats := stats
    energyJ := if known then some (roundTo 1 t.totalEnergyJ) else none
    energyWh := if known then some (roundTo 4 (t.totalEnergyJ / 3600)) else none }

/-- `summarize_phase(samples, max_gap)`. -/
def summarizePhase (maxGap : ℚ) (samples : List Sample) : Option Phase :=
  match samples.head?, samples.getLast? with
  | some first, some last =>
    if samples.length < 2 then none
    else
      let t := totals maxGap samples
      some
        { startT := roundTo 3 first.t
          endT := roundTo 3 last.t
          durationS := roundTo 3 (last.t - first.t)
          maxGapS := roundTo 3
            (((samples.zip samples.tail).map fun p => p.2.t - p.1.t).max?.getD 0)
          gpus := t.gpuEntries
          total := phaseTotal t (totalSeries samples)
          system := t.systemEntries }
  | _, _ => none

/-- The entry of a device in a phase. -/
def Phase.entry (p : Phase) (key : String) : Option Entry := (p.gpus ++ p.system).lookup key

/-! ### What the totals are to say -/

/-- A device record of the phase. -/
def Seen (samples : List Sample) (d : Device) : Prop := ∃ s ∈ samples, d ∈ s.devices

/-- A usable counter, or two power readings to integrate between. -/
def EnergySource (samples : List Sample) (key : String) : Prop :=
  counterEnergy (mjPoints samples key) ≠ none ∨
    2 ≤ (numericPoints (wattPoints samples key)).length

/-- No record of the device has a power or a counter. -/
def NeverReported (samples : List Sample) (key : String) : Prop :=
  ∀ d, Seen samples d → d.key = key → d.w = none ∧ d.mj = none

/-- A total is a number only if every GPU seen has a source of energy, and a device that
reports nothing has no energy. -/
def HonestTotals (maxGap : ℚ) (samples : List Sample) : Prop :=
  ∀ phase, summarizePhase maxGap samples = some phase →
    (phase.total.energyJ.isSome →
      ∀ d, Seen samples d → d.group = "gpu" → EnergySource samples d.key) ∧
    ∀ d, Seen samples d → NeverReported samples d.key →
      ∃ e, phase.entry d.key = some e ∧ e.energyJ = none ∧ e.energyMethod = .none

/-- Every device seen reports a power or a counter somewhere. -/
def AllReport (samples : List Sample) : Prop :=
  ∀ d, Seen samples d → ∃ d', Seen samples d' ∧ d'.key = d.key ∧ (d'.w.isSome ∨ d'.mj.isSome)

/-- Where some GPU reports power, every GPU seen has a source of energy. -/
def GpusSourced (samples : List Sample) : Prop :=
  (∃ d, Seen samples d ∧ d.group = "gpu" ∧ d.w.isSome) →
    ∀ d, Seen samples d → d.group = "gpu" → EnergySource samples d.key

/-! ### Devices and columns -/

variable {samples : List Sample} {maxGap : ℚ}

theorem wattPoints_eq_nil_iff {key : String} :
    wattPoints samples key = [] ↔ ∀ d, Seen samples d → d.key ≠ key := by
  simp only [wattPoints, List.flatMap_eq_nil_iff, List.map_eq_nil_iff, List.filter_eq_nil_iff,
    decide_eq_true_eq]
  exact ⟨fun h d ⟨s, hs, hd⟩ => h s hs d hd, fun h s hs d hd => h d ⟨s, hs, hd⟩⟩

/-- The keys of the columns are those of the records. -/
theorem mem_addDevice {columns : List (String × Column)} {d : Device} {key : String}
    (h : key ∈ (addDevice columns d).map (·.1)) : key ∈ columns.map (·.1) ∨ key = d.key := by
  induction columns with
  | nil => exact .inr (by simpa [addDevice] using h)
  | cons p rest ih =>
    rw [addDevice] at h
    split at h
    · exact .inl (by simpa using h)
    · rcases List.mem_cons.1 h with rfl | h
      · exact .inl List.mem_cons_self
      · exact (ih h).imp_left fun h => List.mem_cons_of_mem _ h

theorem exists_seen_of_mem_column {key : String} (h : key ∈ (column samples).map (·.1)) :
    ∃ d, Seen samples d ∧ d.key = key := by
  have hfold : ∀ (ds : List Device) (columns : List (String × Column)),
      key ∈ (ds.foldl addDevice columns).map (·.1) →
        key ∈ columns.map (·.1) ∨ ∃ d ∈ ds, d.key = key := by
    intro ds
    induction ds with
    | nil => exact fun columns h => .inl h
    | cons d ds ih =>
      intro columns h
      rcases ih _ h with h | ⟨d', hd', hk⟩
      · rcases mem_addDevice h with h | rfl
        · exact .inl h
        · exact .inr ⟨d, List.mem_cons_self, rfl⟩
      · exact .inr ⟨d', List.mem_cons_of_mem d hd', hk⟩
  rcases hfold _ _ h with h | ⟨d, hd, hk⟩
  · cases h
  · obtain ⟨s, hs, hd⟩ := List.mem_flatMap.1 hd
    exact ⟨d, ⟨s, hs, hd⟩, hk⟩

/-! ### The loop over the columns -/

/-- A device with power points is never without a method. -/
theorem deviceEntry_method {key : String} (h : wattPoints samples key ≠ []) (c : Column) :
    (deviceEntry maxGap samples key c).energyMethod ≠ .none := by
  simp only [deviceEntry]
  cases counterEnergy (mjPoints samples key) with
  | none => simp [h]
  | some counted => simp

/-- What the loop has found: a method for every entry so far. -/
structure Totals.Known (t : Totals) : Prop where
  known : t.totalEnergyKnown = true
  method : ∀ p ∈ t.gpuEntries ++ t.systemEntries, p.2.energyMethod ≠ .none

theorem Totals.Known.add {t : Totals} (ht : t.Known) (key : String) {e : Entry}
    (he : e.energyMethod ≠ .none) : (t.add key e).Known := by
  refine ⟨by simp [Totals.add, ht.known, he], fun p hp => ?_⟩
  have hmem : p ∈ t.gpuEntries ++ t.systemEntries ∨ p = (key, e) := by
    simp only [Totals.add] at hp
    split at hp <;> simp only [List.mem_append, List.mem_singleton] at hp ⊢ <;> tauto
  rcases hmem with hmem | rfl
  · exact ht.method p hmem
  · exact he

theorem totals_known (maxGap : ℚ) (samples : List Sample) : (totals maxGap samples).Known := by
  have hfold : ∀ (ps : List (String × Column)) (t : Totals), t.Known →
      (∀ p ∈ ps, wattPoints samples p.1 ≠ []) →
        (ps.foldl (fun acc p => acc.add p.1 (deviceEntry maxGap samples p.1 p.2)) t).Known := by
    intro ps
    induction ps with
    | nil => exact fun t ht _ => ht
    | cons p ps ih =>
      intro t ht hps
      exact ih _ (ht.add _ (deviceEntry_method (hps p List.mem_cons_self) p.2))
        fun q hq => hps q (List.mem_cons_of_mem p hq)
  refine hfold _ _ ⟨rfl, fun p hp => by cases hp⟩ fun p hp => ?_
  obtain ⟨d, hd, hk⟩ := exists_seen_of_mem_column (List.mem_map_of_mem hp)
  exact fun hnil => wattPoints_eq_nil_iff.1 hnil d hd hk

/-! ### The summary -/

theorem summarizePhase_of_few (h : samples.length < 2) : summarizePhase maxGap samples = none := by
  rw [summarizePhase]
  split
  · rw [if_pos h]
  · rfl

/-- A phase of two samples has a summary, with the totals of the loop. -/
theorem exists_summary (h : 2 ≤ samples.length) (maxGap : ℚ) :
    ∃ phase, summarizePhase maxGap samples = some phase ∧
      phase.total = phaseTotal (totals maxGap samples) (totalSeries samples) ∧
      phase.gpus = (totals maxGap samples).gpuEntries ∧
      phase.system = (totals maxGap samples).systemEntries := by
  have hne : samples ≠ [] := List.ne_nil_of_length_pos (by omega)
  rw [summarizePhase, List.head?_eq_some_head hne, List.getLast?_eq_some_getLast hne]
  exact ⟨_, if_neg (not_lt.2 h), rfl, rfl, rfl⟩

/-- Some sample has GPU power exactly if some GPU reports it. -/
theorem totalSeries_ne_nil_iff :
    totalSeries samples ≠ [] ↔ ∃ d, Seen samples d ∧ d.group = "gpu" ∧ d.w.isSome := by
  have hw : ∀ s : Sample, gpuWatts s ≠ [] ↔ ∃ d ∈ s.devices, d.group = "gpu" ∧ d.w.isSome := by
    intro s
    rw [gpuWatts, Ne, List.filterMap_eq_nil_iff, not_forall]
    simp only [exists_prop, ite_eq_right_iff, not_forall, Option.isSome_iff_ne_none, ne_eq]
  rw [totalSeries, Ne, List.filterMap_eq_nil_iff]
  simp only [not_forall, ite_eq_right_iff, reduceCtorEq, imp_false, not_not, hw, Seen]
  simp only [exists_prop]
  exact ⟨fun ⟨s, hs, d, hd, h⟩ => ⟨d, ⟨s, hs, hd⟩, h⟩, fun ⟨d, ⟨s, hs, hd⟩, h⟩ => ⟨s, hs, d, hd, h⟩⟩

/-- The total is a number exactly if some GPU reports power. -/
theorem phaseTotal_isSome_iff :
    (phaseTotal (totals maxGap samples) (totalSeries samples)).energyJ.isSome ↔
      ∃ d, Seen samples d ∧ d.group = "gpu" ∧ d.w.isSome := by
  rw [← totalSeries_ne_nil_iff]
  simp only [phaseTotal, (totals_known maxGap samples).known, seriesStats, List.length_map,
    Bool.and_true, decide_eq_true_eq]
  cases totalSeries samples <;> simp

/-- An entry of a phase has a method. -/
theorem entry_method {phase : Phase} (h : summarizePhase maxGap samples = some phase) {key : String}
    {e : Entry} (he : phase.entry key = some e) : e.energyMethod ≠ .none := by
  rcases lt_or_ge samples.length 2 with hlen | hlen
  · rw [summarizePhase_of_few hlen] at h
    cases h
  · obtain ⟨p, hp, -, hgpus, hsystem⟩ := exists_summary hlen maxGap
    obtain rfl : p = phase := Option.some.inj (hp.symm.trans h)
    rw [Phase.entry, hgpus, hsystem] at he
    obtain ⟨l₁, l₂, hl, -⟩ := List.lookup_eq_some_iff.1 he
    exact (totals_known maxGap samples).method (key, e) (hl ▸ List.mem_append_cons_self)

/-- **Where the totals are honest**: every device reports something, and every GPU has a
source of energy as soon as one reports power. -/
theorem honestTotals_iff (maxGap : ℚ) (samples : List Sample) :
    HonestTotals maxGap samples ↔
      samples.length < 2 ∨ (GpusSourced samples ∧ AllReport samples) := by
  rcases lt_or_ge samples.length 2 with hlen | hlen
  · refine iff_of_true (fun phase h => ?_) (.inl hlen)
    rw [summarizePhase_of_few hlen] at h
    cases h
  obtain ⟨phase, hphase, htotal, -⟩ := exists_summary hlen maxGap
  constructor
  · intro h
    obtain ⟨hgpu, hnone⟩ := h phase hphase
    rw [htotal, phaseTotal_isSome_iff] at hgpu
    refine .inr ⟨hgpu, fun d hd => ?_⟩
    by_contra hsilent
    have hnever : NeverReported samples d.key := by
      intro d' hd' hk
      have hno : ¬ (d'.w.isSome ∨ d'.mj.isSome) := fun hs => hsilent ⟨d', hd', hk, hs⟩
      simpa [not_or] using hno
    obtain ⟨e, he, -, hmethod⟩ := hnone d hd hnever
    exact entry_method hphase he hmethod
  · rintro (hfew | ⟨hgpu, hreport⟩) phase' hphase'
    · omega
    obtain rfl : phase = phase' := Option.some.inj (hphase.symm.trans hphase')
    refine ⟨?_, fun d hd hnever => ?_⟩
    · rw [htotal, phaseTotal_isSome_iff]
      exact hgpu
    · -- the device reports something after all
      obtain ⟨d', hd', hk, hs⟩ := hreport d hd
      obtain ⟨hw, hmj⟩ := hnever d' hd' hk
      simp [hw, hmj] at hs

/-- A sample of two GPUs, of which the second reports nothing. -/
def silentSample (t : ℚ) : Sample where
  t := t
  devices :=
    [⟨"gpu0", "gpu", some 100, none, some 50, some 60, none, none⟩,
      ⟨"gpu1", "gpu", none, none, none, none, none, none⟩]

/-- The silent GPU gets a trapezoid of nothing, not `none`. -/
theorem honestTotals_silent : ¬ HonestTotals 5 [silentSample 0, silentSample 1] := by
  intro h
  obtain ⟨phase, hphase, -⟩ :=
    exists_summary (le_refl [silentSample 0, silentSample 1].length) 5
  have hseen : Seen [silentSample 0, silentSample 1]
      ⟨"gpu1", "gpu", none, none, none, none, none, none⟩ :=
    ⟨silentSample 0, List.mem_cons_self, by decide⟩
  have hnever : NeverReported [silentSample 0, silentSample 1] "gpu1" := by
    rintro d ⟨s, hs, hd⟩ hk
    have hdev : s.devices = (silentSample 0).devices := by
      rcases List.mem_cons.1 hs with rfl | hs
      · rfl
      · rw [List.mem_singleton.1 hs]
        rfl
    rw [hdev, silentSample] at hd
    simp only [List.mem_cons, List.not_mem_nil, or_false] at hd
    rcases hd with rfl | rfl
    · exact absurd hk (by decide)
    · exact ⟨rfl, rfl⟩
  obtain ⟨e, he, -, hmethod⟩ := (h phase hphase).2 _ hseen hnever
  exact entry_method hphase he hmethod

end Glm53Serve.BenchPower
