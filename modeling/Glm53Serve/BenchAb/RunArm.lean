import Glm53Serve.BenchAb.Arms
import Mathlib.Data.Rat.Defs
import Mathlib.Logic.Function.Basic

/-!
# Running an arm

An arm is run by restarting the server, waiting for its health, warming it up and running
the benchmarks one after the other. A benchmark leaves an artifact, a JSON file, from which
its metrics are extracted; a file that lies at the path of the artifact is taken for it.

## The model

`run_arm`, with everything outside of the harness in a `World`: how each step of the protocol
ends, and how each benchmark ends and what it does to the file at its path. A step that raises
fails. What JSON objects are and what is extracted from them is left open; the metrics of a
record are what the comparison reads of them. Logs are left out of the files, as nothing
reads them.

## What is proved

* `runBench_spec` — what a record says of the file that was there and of what the benchmark did.
* `runBenches_spec`, `runArms_spec` — where paths are distinct, each benchmark finds at its path
  what lay there before the harness started.
-/

namespace Glm53Serve.BenchAb

open Py

/-! ### Files and benchmarks -/

/-- What is at a path: a JSON object, or a file that `load_artifact` refuses. -/
inductive Content (A : Type) where
  | object (a : A)
  | other

/-- The files of the output directory. -/
abbrev Files (A : Type) := Text → Option (Content A)

/-- What a process does to the file at the path of its artifact. -/
inductive Effect (A : Type) where
  | kept
  | removed
  | wrote (c : Content A)

/-- How `_run_process` ends; a process that is killed for its time has the exit code 124. -/
inductive Process (A : Type) where
  | notStarted
  | exited (code : ℤ) (effect : Effect A)

/-- How `spec.run_direct` and the writing of its artifact end. -/
inductive Direct (A : Type) where
  | raised
  | unwritten (effect : Effect A)
  | returned (a : A)

/-- What a boot probe answers; the id is empty where there is none. -/
structure Boot where
  id : Text
  source : Text
  deriving DecidableEq

/-- `reset["status"]`. -/
inductive ResetStatus where
  | ok
  | absent
  | failed
  deriving DecidableEq

/-- Everything outside of the harness while an arm runs. -/
structure World (A : Type) where
  /-- `out_dir.mkdir` returns. -/
  mkdirOk : Bool := true
  /-- `start.sh` is a file. -/
  startScript : Bool := true
  /-- The exit code of `./start.sh restart`. -/
  restartExit : ℤ := 0
  /-- `health["ok"]`. -/
  healthOk : Bool := true
  /-- `result["boot"]`. -/
  boot : Boot := ⟨[], []⟩
  /-- `merged.get("GLM53_EXPOSE_CACHE_RESET") == "1"`. -/
  exposeCacheReset : Bool := false
  /-- `reset["status"]`. -/
  resetStatus : ResetStatus := .ok
  /-- `warmup.get("ok")`. -/
  warmupOk : Bool := true
  process : Bench → Process A
  direct : Bench → Direct A
  /-- `result["boot_end"]`; `none` is an exception of the probe. -/
  bootEnd : Option Boot := some ⟨[], []⟩

/-- `result["error"]`. -/
inductive ArmRunError where
  | mkdir
  | startScript
  | restart (exitCode : ℤ)
  | health
  | cacheReset
  | warmup
  | bootProbe
  deriving DecidableEq

/-- The samples of each metric; `none` is a value that is no finite number. -/
abbrev BenchMetrics := List (Text × List (Option ℚ))

/-- The record of a benchmark. -/
structure Record where
  bench : Bench
  artifact : Text
  log : Text
  ok : Bool
  exitCode : Option ℤ
  metrics : Option BenchMetrics
  deriving DecidableEq

/-- What `run_arm` returns. -/
structure ArmResult where
  arm : Arm
  benches : List Record
  error : Option ArmRunError
  ok : Bool
  deriving DecidableEq

variable {A : Type}

/-- The file after an effect. -/
def Effect.after (old : Option (Content A)) : Effect A → Option (Content A)
  | .kept => old
  | .removed => none
  | .wrote c => some c

/-- `load_artifact(path)`; `none` is `BenchArtifactError`. -/
def loadArtifact : Option (Content A) → Option A
  | some (.object a) => some a
  | _ => none

theorem loadArtifact_eq {file : Option (Content A)} {a : A} :
    loadArtifact file = some a ↔ file = some (.object a) := by
  rcases file with _ | _ | _ <;> simp [loadArtifact]

/-! ### The harness -/

section
variable (extract : Bench → A → Option BenchMetrics)

/-- The end of a benchmark's `try`: the metrics of its artifact, if it has one. -/
def finishRecord (record : Record) (artifact : Option A) : Record :=
  match artifact.bind (extract record.bench) with
  | none => record
  | some metrics => { record with metrics := some metrics, ok := true }

/-- One turn of the loop over the benchmarks. -/
def runBench (files : Files A) (arm : Arm) (w : World A) (b : Bench) : Files A × Record :=
  let path := artifactPath arm b
  let record : Record := ⟨b, path, logPath arm b, false, none, none⟩
  if b.direct then
    match w.direct b with
    | .raised => (files, record)
    | .unwritten effect => (Function.update files path (effect.after (files path)), record)
    | .returned a =>
      (Function.update files path (some (.object a)),
        finishRecord extract { record with exitCode := some 0 } (some a))
  else
    match w.process b with
    | .notStarted => (files, record)
    | .exited code effect =>
      let file := effect.after (files path)
      let record := { record with exitCode := some code }
      (Function.update files path file,
        if code ≠ 0 then record else finishRecord extract record (loadArtifact file))

/-- The loop over the benchmarks. -/
def runBenches (arm : Arm) (w : World A) : Files A → List Bench → Files A × List Record
  | files, [] => (files, [])
  | files, b :: benches =>
    let (files, record) := runBench extract files arm w b
    let (files, records) := runBenches arm w files benches
    (files, record :: records)

/-- The steps before the benchmarks. -/
def prologue (noRestart : Bool) (w : World A) : Except ArmRunError Unit := do
  if !w.mkdirOk then throw .mkdir
  if !noRestart then
    if !w.startScript then throw .startScript
    if w.restartExit ≠ 0 then throw (.restart w.restartExit)
  if !w.healthOk then throw .health
  if w.exposeCacheReset ∧ w.resetStatus = .failed then throw .cacheReset
  if !w.warmupOk then throw .warmup

/-- `boot_changed`. -/
def bootChanged (start stop : Boot) : Bool :=
  start.id ≠ [] && stop.id ≠ [] && start.id ≠ stop.id && start.source = stop.source

/-- `run_arm`, and the files that it leaves. -/
def runArm (noRestart : Bool) (benches : List Bench) (files : Files A) (arm : Arm) (w : World A) :
    Files A × ArmResult :=
  match prologue noRestart w with
  | .error e => (files, ⟨arm, [], some e, false⟩)
  | .ok () =>
    let (files, records) := runBenches extract arm w files benches
    match w.bootEnd with
    | none => (files, ⟨arm, records, some .bootProbe, false⟩)
    | some bootEnd =>
      (files, ⟨arm, records, none,
        !bootChanged w.boot bootEnd && !records.isEmpty && records.all (·.ok)⟩)

/-- The loop of `main` over the arms. -/
def runArms (noRestart : Bool) (benches : List Bench) (world : Arm → World A) :
    Files A → List Arm → List ArmResult
  | _, [] => []
  | files, arm :: arms =>
    let (files, result) := runArm extract noRestart benches files arm (world arm)
    result :: runArms noRestart benches world files arms

end

/-! ### One benchmark -/

/-- What the benchmark wrote at its path while it ran. -/
def World.wrote (w : World A) (b : Bench) : Option (Content A) :=
  if b.direct then
    match w.direct b with
    | .returned a => some (.object a)
    | _ => none
  else
    match w.process b with
    | .exited _ (.wrote c) => some c
    | _ => none

/-- The benchmark ended without an error and wrote an artifact. -/
def World.Delivers (w : World A) (b : Bench) : Prop :=
  if b.direct then ∃ a, w.direct b = .returned a else ∃ c, w.process b = .exited 0 (.wrote c)

/-- The process ended without an error and left its path as it was. -/
def World.Silent (w : World A) (b : Bench) : Prop :=
  b.direct = false ∧ w.process b = .exited 0 .kept

variable {extract : Bench → A → Option BenchMetrics} {files : Files A} {arm : Arm} {w : World A}

theorem runBench_bench (b : Bench) : (runBench extract files arm w b).2.bench = b := by
  have hfin : ∀ (r : Record) (a : Option A), (finishRecord extract r a).bench = r.bench := by
    intro r a
    rw [finishRecord]
    split <;> rfl
  simp only [runBench]
  repeat' split
  all_goals first
    | rfl
    | exact hfin _ _

theorem runBench_frame (b : Bench) {p : Text} (hp : p ≠ artifactPath arm b) :
    (runBench extract files arm w b).1 p = files p := by
  simp only [runBench]
  repeat' split
  all_goals first
    | rfl
    | exact Function.update_of_ne hp _ _

theorem finishRecord_ok {r : Record} (hr : r.ok = false) {artifact : Option A}
    (h : (finishRecord extract r artifact).ok = true) :
    ∃ a m, artifact = some a ∧ extract r.bench a = some m ∧
      (finishRecord extract r artifact).metrics = some m := by
  rw [finishRecord] at h ⊢
  split at h
  · rw [hr] at h
    cases h
  · rename_i m hm
    obtain ⟨a, ha, hm'⟩ := Option.bind_eq_some_iff.mp hm
    exact ⟨a, m, ha, hm', rfl⟩

/-- A record that is ok has the metrics of what the benchmark wrote while it ran, or of the
object that a silent process left where it was. -/
theorem runBench_ok {b : Bench} (h : (runBench extract files arm w b).2.ok = true) :
    ∃ a m, extract b a = some m ∧ (runBench extract files arm w b).2.metrics = some m ∧
      ((w.wrote b = some (.object a) ∧ w.Delivers b) ∨
        (w.Silent b ∧ files (artifactPath arm b) = some (.object a))) := by
  simp only [runBench, World.wrote, World.Delivers, World.Silent] at h ⊢
  cases hd : b.direct with
  | true =>
    simp only [hd, if_true] at h ⊢
    cases hw : w.direct b with
    | raised => simp [hw] at h
    | unwritten effect => simp [hw] at h
    | returned a =>
      simp only [hw] at h ⊢
      obtain ⟨a', m, ha, hm, hmetrics⟩ := finishRecord_ok rfl h
      cases ha
      exact ⟨a, m, hm, hmetrics, .inl ⟨rfl, a, rfl⟩⟩
  | false =>
    simp only [hd, Bool.false_eq_true, if_false] at h ⊢
    cases hw : w.process b with
    | notStarted => simp [hw] at h
    | exited code effect =>
      simp only [hw] at h ⊢
      by_cases hc : code = 0
      · subst hc
        simp only [ne_eq, not_true_eq_false, if_false] at h ⊢
        obtain ⟨a, m, ha, hm, hmetrics⟩ := finishRecord_ok rfl h
        refine ⟨a, m, hm, hmetrics, ?_⟩
        cases effect with
        | kept =>
          exact .inr ⟨⟨trivial, rfl⟩, loadArtifact_eq.mp ha⟩
        | removed => cases ha
        | wrote c =>
          exact .inl ⟨loadArtifact_eq.mp ha, c, rfl⟩
      · simp [hc] at h

/-- The object that a silent process left is taken for its artifact. -/
theorem runBench_silent {b : Bench} (h : w.Silent b) {a : A} {m : BenchMetrics}
    (hf : files (artifactPath arm b) = some (.object a)) (hm : extract b a = some m) :
    (runBench extract files arm w b).2.ok = true := by
  obtain ⟨hd, hw⟩ := h
  simp [runBench, hd, hw, Effect.after, hf, loadArtifact, finishRecord, hm]

/-! ### The benchmarks of an arm -/

theorem runBenches_cons {b : Bench} {benches : List Bench} :
    runBenches extract arm w files (b :: benches) =
      ((runBenches extract arm w (runBench extract files arm w b).1 benches).1,
        (runBench extract files arm w b).2 ::
          (runBenches extract arm w (runBench extract files arm w b).1 benches).2) := rfl

/-- Every other path is as it was. -/
theorem runBenches_frame {benches : List Bench} : ∀ {files : Files A} {p : Text},
    (∀ b ∈ benches, p ≠ artifactPath arm b) →
      (runBenches extract arm w files benches).1 p = files p := by
  induction benches with
  | nil => exact fun _ => rfl
  | cons b benches ih =>
    intro files p hp
    rw [runBenches_cons, ih fun b' hb' => hp b' (List.mem_cons_of_mem _ hb')]
    exact runBench_frame b (hp b List.mem_cons_self)

theorem runBenches_benches {benches : List Bench} : ∀ {files : Files A},
    (runBenches extract arm w files benches).2.map (·.bench) = benches := by
  induction benches with
  | nil => exact rfl
  | cons b benches ih =>
    intro files
    rw [runBenches_cons, List.map_cons, ih, runBench_bench]

/-- Each record is of a benchmark that was run where its path was as it is at first. -/
theorem runBenches_spec {files₀ : Files A} {benches : List Bench} : ∀ {files : Files A},
    benches.Nodup → (∀ b ∈ benches, files (artifactPath arm b) = files₀ (artifactPath arm b)) →
    ∀ r ∈ (runBenches extract arm w files benches).2,
      ∃ files', r = (runBench extract files' arm w r.bench).2 ∧
        files' (artifactPath arm r.bench) = files₀ (artifactPath arm r.bench) := by
  induction benches with
  | nil => exact fun _ _ r hr => nomatch hr
  | cons b benches ih =>
    intro files hnodup hfiles r hr
    obtain ⟨hb, hnodup⟩ := List.nodup_cons.mp hnodup
    rw [runBenches_cons] at hr
    rcases List.mem_cons.mp hr with rfl | hr
    · rw [runBench_bench]
      exact ⟨files, rfl, hfiles b List.mem_cons_self⟩
    · refine ih hnodup (fun b' hb' => ?_) r hr
      have hne : artifactPath arm b' ≠ artifactPath arm b := fun he =>
        hb ((artifactPath_inj.mp he).2 ▸ hb')
      exact (runBench_frame b hne).trans (hfiles b' (List.mem_cons_of_mem _ hb'))

/-! ### The arms of a run -/

variable {noRestart : Bool} {benches : List Bench}

/-- An arm that does not reach its benchmarks has none, and is not ok. -/
theorem runArm_of_error {e : ArmRunError} (h : prologue noRestart w = .error e) :
    runArm extract noRestart benches files arm w = (files, ⟨arm, [], some e, false⟩) := by
  rw [runArm, h]

/-- What an arm that reaches its benchmarks returns. -/
theorem runArm_of_ok (h : prologue noRestart w = .ok ()) :
    (runArm extract noRestart benches files arm w).1 = (runBenches extract arm w files benches).1 ∧
      (runArm extract noRestart benches files arm w).2.arm = arm ∧
      (runArm extract noRestart benches files arm w).2.benches =
        (runBenches extract arm w files benches).2 ∧
      ((runArm extract noRestart benches files arm w).2.ok = true →
        ∀ r ∈ (runBenches extract arm w files benches).2, r.ok = true) := by
  rw [runArm, h]
  cases hb : w.bootEnd with
  | none => exact ⟨rfl, rfl, rfl, fun hok => nomatch hok⟩
  | some bootEnd =>
    refine ⟨rfl, rfl, rfl, fun hok r hr => ?_⟩
    rw [Bool.and_eq_true, List.all_eq_true] at hok
    exact hok.2 r hr

theorem runArm_arm : (runArm extract noRestart benches files arm w).2.arm = arm := by
  cases h : prologue noRestart w with
  | error e => rw [runArm_of_error h]
  | ok _ => exact (runArm_of_ok h).2.1

theorem runArm_frame {p : Text} (hp : ∀ b ∈ benches, p ≠ artifactPath arm b) :
    (runArm extract noRestart benches files arm w).1 p = files p := by
  cases h : prologue noRestart w with
  | error e => rw [runArm_of_error h]
  | ok _ => rw [(runArm_of_ok h).1, runBenches_frame hp]

variable {world : Arm → World A}

theorem runArms_cons {arms : List Arm} :
    runArms extract noRestart benches world files (arm :: arms) =
      (runArm extract noRestart benches files arm (world arm)).2 ::
        runArms extract noRestart benches world
          (runArm extract noRestart benches files arm (world arm)).1 arms := rfl

/-- Each result is of an arm that was run where its paths were as they are at first. -/
theorem runArms_spec {files₀ : Files A} {arms : List Arm} : ∀ {files : Files A},
    (arms.map fun arm => slug arm.name).Nodup →
    (∀ arm ∈ arms, ∀ b, files (artifactPath arm b) = files₀ (artifactPath arm b)) →
    ∀ res ∈ runArms extract noRestart benches world files arms,
      ∃ files', res = (runArm extract noRestart benches files' res.arm (world res.arm)).2 ∧
        ∀ b, files' (artifactPath res.arm b) = files₀ (artifactPath res.arm b) := by
  induction arms with
  | nil => exact fun _ _ res hres => nomatch hres
  | cons arm arms ih =>
    intro files hnodup hfiles res hres
    rw [List.map_cons, List.nodup_cons] at hnodup
    rw [runArms_cons] at hres
    rcases List.mem_cons.mp hres with rfl | hres
    · rw [runArm_arm]
      exact ⟨files, rfl, hfiles arm List.mem_cons_self⟩
    · refine ih hnodup.2 (fun arm' harm' b => ?_) res hres
      have hne : ∀ b' ∈ benches, artifactPath arm' b ≠ artifactPath arm b' := fun b' _ he =>
        hnodup.1 (List.mem_map.mpr ⟨arm', harm', (artifactPath_inj.mp he).1⟩)
      exact (runArm_frame hne).trans (hfiles arm' (List.mem_cons_of_mem _ harm') b)

theorem runArms_arms {arms : List Arm} : ∀ {files : Files A},
    (runArms extract noRestart benches world files arms).map (·.arm) = arms := by
  induction arms with
  | nil => exact rfl
  | cons arm arms ih =>
    intro files
    rw [runArms_cons, List.map_cons, ih, runArm_arm]

end Glm53Serve.BenchAb
