import Glm53Serve.BenchAb.Comparison

/-!
# Where the metrics of an arm come from

The harness promises that failed arms are never silently compared: a missing artifact fails
its arm. But a file that lies at the path of an artifact is taken for it, whoever wrote it:
an earlier run of the harness, or another arm whose name has the same slug.

## The model

The run of the harness over the arms that `parse_arms` accepts, from any files in the output
directory and in any world.

## What is proved

* `provenance_iff` — every record that is ok has the metrics of what its own benchmark wrote in
  its own arm, and no arm without them is compared, exactly when the slugs of the arms are
  distinct and no silent benchmark finds an old artifact.
-/

namespace Glm53Serve.BenchAb

open Py

variable {A : Type}

/-- The comparison is what it would be with other records of the arm, and has no statistics of
the arm. -/
def ContributesNothing (results : List ArmResult) (r : ArmResult) : Prop :=
  (∀ benches, buildComparison
      (results.map fun r' => if r'.arm = r.arm then { r' with benches := benches } else r') =
    buildComparison results) ∧
  ∀ m ∈ (buildComparison results).metrics, ∀ s ∈ m.2, s.1 ≠ r.arm.name

/-- The arms, the benchmarks, the files before the run and the world of a run of the harness. -/
structure Harness (A : Type) where
  extract : Bench → A → Option BenchMetrics
  noRestart : Bool
  arms : List Arm
  benches : List Bench
  files : Files A
  world : Arm → World A

namespace Harness

variable (h : Harness A)

/-- What the harness reports of the arms. -/
def results : List ArmResult :=
  runArms h.extract h.noRestart h.benches h.world h.files h.arms

/-- What the protocol promises of a run. -/
structure Provenance : Prop where
  /-- The metrics of a record that is ok are of an artifact that its benchmark wrote meanwhile. -/
  fresh : ∀ res ∈ h.results, ∀ r ∈ res.benches, r.ok = true →
    ∃ a m, (h.world res.arm).wrote r.bench = some (.object a) ∧ h.extract r.bench a = some m ∧
      r.metrics = some m
  /-- No two benchmarks of the run share a file. -/
  paths : ∀ arm ∈ h.arms, ∀ arm' ∈ h.arms, ∀ b ∈ h.benches, ∀ b' ∈ h.benches, (arm, b) ≠
    (arm', b') →
    artifactPath arm b ≠ artifactPath arm' b' ∧ logPath arm b ≠ logPath arm' b' ∧
      artifactPath arm b ≠ logPath arm' b'
  /-- An arm with a benchmark that failed, or that delivered nothing, is not compared. -/
  failed : ∀ res ∈ h.results,
    (∃ b ∈ h.benches, ¬ (h.world res.arm).Delivers b ∨ ∃ r ∈ res.benches, r.bench = b ∧
      r.ok = false) →
    res.ok = false ∧ ContributesNothing h.results res

/-- The slugs of the arms are distinct, and where a process ends without an error and leaves its
path as it was, no artifact lies there from which metrics can be extracted. -/
structure Traceable : Prop where
  slugs : (h.arms.map fun arm => trimmed arm.name).Nodup
  noStale : ∀ arm ∈ h.arms, prologue h.noRestart (h.world arm) = .ok () → ∀ b ∈ h.benches,
    (h.world arm).Silent b → ∀ a, h.files (artifactPath arm b) = some (.object a) →
      h.extract b a = none

/-! ### Arms that are not ok -/

variable {h}

theorem results_arms : h.results.map (·.arm) = h.arms := runArms_arms

theorem arm_mem {res : ArmResult} (hres : res ∈ h.results) : res.arm ∈ h.arms := by
  rw [← results_arms]
  exact List.mem_map_of_mem hres

theorem exists_result {arm : Arm} (harm : arm ∈ h.arms) : ∃ res ∈ h.results, res.arm = arm := by
  rw [← results_arms] at harm
  exact List.mem_map.mp harm

/-- The arms of the results have distinct names. -/
theorem eq_of_name (hnames : (h.arms.map (·.name)).Nodup) {res res' : ArmResult}
    (hres : res ∈ h.results) (hres' : res' ∈ h.results) (he : res.arm.name = res'.arm.name) :
    res = res' := by
  rw [← results_arms, List.map_map] at hnames
  exact List.inj_on_of_nodup_map hnames hres hres' he

/-- An arm that is not ok contributes nothing. -/
theorem contributesNothing (hnames : (h.arms.map (·.name)).Nodup) {res : ArmResult}
    (hres : res ∈ h.results) (hok : res.ok = false) : ContributesNothing h.results res := by
  refine ⟨fun benches => buildComparison_congr fun r hr => ?_, fun m hm s hs he => ?_⟩
  · split_ifs with harm
    · refine ⟨rfl, rfl, fun ho => ?_⟩
      rw [eq_of_name hnames hr hres (congrArg Arm.name harm), hok] at ho
      cases ho
    · exact ⟨rfl, rfl, fun _ => rfl⟩
  · obtain ⟨r, hr, ho, hname⟩ := mem_metrics hm hs
    rw [eq_of_name hnames hr hres (hname.trans he), hok] at ho
    cases ho

/-! ### The records -/

/-- Where no two arms share a slug, a record is of a benchmark that an arm reached, run where its
path was as before the run. -/
theorem record_spec (hslugs : (h.arms.map fun arm => slug arm.name).Nodup) (hb : h.benches.Nodup)
    {res : ArmResult} (hres : res ∈ h.results) {r : Record} (hr : r ∈ res.benches) :
    prologue h.noRestart (h.world res.arm) = .ok () ∧ r.bench ∈ h.benches ∧
      ∃ files, r = (runBench h.extract files res.arm (h.world res.arm) r.bench).2 ∧
        files (artifactPath res.arm r.bench) = h.files (artifactPath res.arm r.bench) := by
  obtain ⟨files, he, hfiles⟩ := runArms_spec hslugs (fun _ _ _ => rfl) res hres
  cases hp : prologue h.noRestart (h.world res.arm) with
  | error e =>
    rw [he, runArm_of_error hp] at hr
    cases hr
  | ok _ =>
    rw [he, (runArm_of_ok hp).2.2.1] at hr
    refine ⟨rfl, ?_, runBenches_spec hb (fun b _ => hfiles b) r hr⟩
    have hmem := List.mem_map_of_mem (f := Record.bench) hr
    rwa [runBenches_benches] at hmem

/-- An arm that is ok has a record of every benchmark, and all are ok. -/
theorem records_of_ok (hslugs : (h.arms.map fun arm => slug arm.name).Nodup) {res : ArmResult}
    (hres : res ∈ h.results) (hok : res.ok = true) :
    (∀ r ∈ res.benches, r.ok = true) ∧ ∀ b ∈ h.benches, ∃ r ∈ res.benches, r.bench = b := by
  obtain ⟨files, he, -⟩ := runArms_spec hslugs (fun _ _ _ => rfl) res hres
  cases hp : prologue h.noRestart (h.world res.arm) with
  | error e =>
    rw [he, runArm_of_error hp] at hok
    cases hok
  | ok _ =>
    obtain ⟨-, -, hbenches, hall⟩ := runArm_of_ok hp
    have hmap : (runBenches h.extract res.arm (h.world res.arm) files h.benches).2.map (·.bench) =
        h.benches := runBenches_benches
    rw [he, hbenches]
    rw [he] at hok
    refine ⟨hall hok, fun b hb => List.mem_map.mp ?_⟩
    rwa [hmap]

/-- What an arm that reached its benchmarks reports of one of them. -/
theorem exists_record (hslugs : (h.arms.map fun arm => slug arm.name).Nodup) {arm : Arm}
    (harm : arm ∈ h.arms) (hp : prologue h.noRestart (h.world arm) = .ok ()) {b : Bench}
    (hb : b ∈ h.benches) : ∃ res ∈ h.results, res.arm = arm ∧ ∃ r ∈ res.benches, r.bench = b := by
  obtain ⟨res, hres, rfl⟩ := exists_result harm
  obtain ⟨files, he, -⟩ := runArms_spec hslugs (fun _ _ _ => rfl) res hres
  obtain ⟨-, -, hbenches, -⟩ := runArm_of_ok hp
  refine ⟨res, hres, rfl, List.mem_map.mp ?_⟩
  rw [he, hbenches, runBenches_benches]
  exact hb

/-! ### The promise -/

theorem Traceable.provenance (hnames : (h.arms.map (·.name)).Nodup) (hb : h.benches.Nodup)
    (hslug : ∀ arm ∈ h.arms, slug arm.name = trimmed arm.name) (ht : h.Traceable) :
    h.Provenance := by
  have hslugs : (h.arms.map fun arm => slug arm.name).Nodup := by
    rw [List.map_congr_left hslug]
    exact ht.slugs
  -- a record that is ok is of a benchmark that delivered
  have hdelivers : ∀ res ∈ h.results, ∀ r ∈ res.benches, r.ok = true →
      ∃ a m, h.extract r.bench a = some m ∧ r.metrics = some m ∧
        (h.world res.arm).wrote r.bench = some (.object a) ∧
            (h.world res.arm).Delivers r.bench := by
    intro res hres r hr hok
    obtain ⟨hp, hmem, files, he, hfiles⟩ := record_spec hslugs hb hres hr
    rw [he] at hok
    obtain ⟨a, m, hm, hmetrics, ⟨hwrote, hdel⟩ | ⟨hsilent, hfile⟩⟩ := runBench_ok hok
    · exact ⟨a, m, hm, he ▸ hmetrics, hwrote, hdel⟩
    · rw [hfiles] at hfile
      rw [ht.noStale res.arm (arm_mem hres) hp r.bench hmem hsilent a hfile] at hm
      cases hm
  refine ⟨fun res hres r hr hok => ?_, fun arm harm arm' harm' b _ b' _ hne => ?_,
    fun res hres hbad => ?_⟩
  · obtain ⟨a, m, hm, hmetrics, hwrote, -⟩ := hdelivers res hres r hr hok
    exact ⟨a, m, hwrote, hm, hmetrics⟩
  · have hne' : ¬ (slug arm.name = slug arm'.name ∧ b = b') := by
      rintro ⟨hs, rfl⟩
      exact hne (by rw [List.inj_on_of_nodup_map hslugs harm harm' hs])
    exact ⟨fun hp => hne' (artifactPath_inj.mp hp), fun hp => hne' (logPath_inj.mp hp),
      artifactPath_ne_logPath arm arm' b b'⟩
  · have hok : res.ok = false := by
      by_contra hok
      obtain ⟨hall, hexists⟩ := records_of_ok hslugs hres (Bool.eq_true_of_not_eq_false hok)
      obtain ⟨b, hbmem, hdel | ⟨r, hr, -, hrok⟩⟩ := hbad
      · obtain ⟨r, hr, rfl⟩ := hexists b hbmem
        obtain ⟨-, -, -, -, -, hd⟩ := hdelivers res hres r hr (hall r hr)
        exact hdel hd
      · rw [hall r hr] at hrok
        cases hrok
    exact ⟨hok, contributesNothing hnames hres hok⟩

theorem Provenance.traceable (hnames : (h.arms.map (·.name)).Nodup) (hb : h.benches.Nodup)
    (hne : h.benches ≠ []) (hslug : ∀ arm ∈ h.arms, slug arm.name = trimmed arm.name)
    (hp : h.Provenance) : h.Traceable := by
  have hslugs : (h.arms.map fun arm => slug arm.name).Nodup := by
    obtain ⟨b, hbmem⟩ := List.exists_mem_of_ne_nil _ hne
    refine (List.nodup_map_iff_inj_on (List.Nodup.of_map _ hnames)).mpr
      fun arm harm arm' harm' hs => ?_
    by_contra hdiff
    have hpath := hp.paths arm harm arm' harm' b hbmem b hbmem fun he => hdiff (congrArg Prod.fst he)
    exact hpath.1 (artifactPath_inj.mpr ⟨hs, rfl⟩)
  refine ⟨?_, fun arm harm hreach b hbmem hsilent a hfile => ?_⟩
  · rw [← List.map_congr_left hslug]
    exact hslugs
  · by_contra hext
    obtain ⟨m, hm⟩ := Option.ne_none_iff_exists'.mp hext
    obtain ⟨res, hres, rfl, r, hr, rfl⟩ := exists_record hslugs harm hreach hbmem
    obtain ⟨-, -, files, he, hfiles⟩ := record_spec hslugs hb hres hr
    have hok : r.ok = true := by
      rw [he]
      exact runBench_silent hsilent ((hfiles).trans hfile) hm
    obtain ⟨a', m', hwrote, -⟩ := hp.fresh res hres r hr hok
    simp [World.wrote, hsilent.1, hsilent.2] at hwrote

end Harness

/-- **Provenance of the metrics**: over the arms and benchmarks that the harness accepts, and from
any files in its output directory, the promise of the protocol holds exactly when the slugs of the
arms are distinct and no silent process finds an old artifact at its path. -/
theorem provenance_iff {specs names : List Text} {h : Harness A}
    (harms : parseArms specs = .ok h.arms)
    (hbenches : parseBenchSelection names = some h.benches) : h.Provenance ↔ h.Traceable := by
  obtain ⟨-, hnames, hre⟩ := parseArms_spec harms
  obtain ⟨hne, hnodup⟩ := parseBenchSelection_spec hbenches
  have hslug : ∀ arm ∈ h.arms, slug arm.name = trimmed arm.name := fun arm harm =>
    slug_eq (hre arm harm)
  exact ⟨fun hp => hp.traceable hnames hnodup hne hslug, fun ht =>
    ht.provenance hnames hnodup hslug⟩

/-! ### Two arms of one slug -/

/-- `_extract_decode` of runs that report `tok_s` only. -/
def extractDecode (_ : Bench) (runs : List ℚ) : Option BenchMetrics :=
  if runs = [] then none
  else some [("decode_tok_s".toList, runs.map some), ("ttft_s".toList, [])]

/-- The arms `a` and `a.`; the benchmark writes its artifact in the first, and ends without an
error and without an artifact in the second. -/
def collision : Harness (List ℚ) where
  extract := extractDecode
  noRestart := true
  arms := [⟨['a'], [], ['a']⟩, ⟨['a', '.'], [], ['a', '.']⟩]
  benches := [.decodeProse]
  files := fun _ => none
  world := fun arm =>
    { process := fun _ => .exited 0 (if arm.name = ['a'] then .wrote (.object [20]) else .kept)
      direct := fun _ => .raised }

theorem collision_arms : parseArms [['a'], ['a', '.']] = .ok collision.arms := by rfl

theorem collision_benches :
    parseBenchSelection ["decode_prose".toList] = some collision.benches := by rfl

/-- Both arms are ok with the metrics of the first. -/
theorem collision_not_provenance :
    parseArms [['a'], ['a', '.']] = .ok collision.arms ∧
      parseBenchSelection ["decode_prose".toList] = some collision.benches ∧
      (collision.results.map fun res => (res.ok, res.benches.map (·.metrics))) =
        [(true, [extractDecode .decodeProse [20]]), (true, [extractDecode .decodeProse [20]])] ∧
      ¬ collision.Provenance := by
  refine ⟨collision_arms, collision_benches, rfl, fun hp => ?_⟩
  refine (hp.paths ⟨['a'], [], ['a']⟩ (by decide) ⟨['a', '.'], [], ['a', '.']⟩ (by decide)
    .decodeProse (by decide) .decodeProse (by decide) (by decide)).1 ?_
  rfl

theorem provenance_iff_collision : collision.Provenance ↔ collision.Traceable :=
  provenance_iff collision_arms collision_benches

end Glm53Serve.BenchAb
