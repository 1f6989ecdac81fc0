import Glm53Serve.BenchPower.Markers
import Mathlib.Data.Rat.Init

/-!
# Sampling around a command

`run_wrap` of `tools/bench-power.py` samples while the machine is idle, spawns the command, samples
until the command ends, times out or is interrupted, and samples the idle machine once more. Every
record goes to a list in memory, of which the summary and the chart are made, and to a JSONL stream,
from which `--rechart` makes the chart again.

## The model

The steps are those of the code between two points at which a signal may be handled, the child may
exit or a write may fail; what the clock, the collectors and the marker file say is free, and a run
carries what its ticks have read of them. The records are without their `ts`, and the events without
the fields that only repeat the arguments. Without a stream (`--no-jsonl`) no write fails.

## What is proved

* `sampled_append` — the records of the ticks, with one tailing of the marker file.
* `step_inv` — what every step keeps.
* `wrap_ends` — where `run_wrap` returns, the stream and the memory have the records of the ticks,
  the child is reaped, and the exit code is zero only for a command that has succeeded; where it
  raises the child is reaped too.
-/

namespace Glm53Serve.BenchPower

open Py

/-! ### The records -/

/-- The phases of a run, in their order. -/
inductive PhaseName where
  | idleBefore
  | load
  | idleAfter
  deriving DecidableEq, Repr

def PhaseName.rank : PhaseName → ℕ
  | .idleBefore => 0
  | .load => 1
  | .idleAfter => 2

/-- A record that is kept in memory. -/
inductive Rec (D : Type*) where
  | sample (phase : PhaseName) (t : ℚ) (devices : List D)
  | marker (phase : PhaseName) (t : ℚ) (label : Text)

namespace Rec

variable {D : Type*}

def phase : Rec D → PhaseName
  | .sample phase _ _ => phase
  | .marker phase _ _ => phase

def isSample : Rec D → Bool
  | .sample _ _ _ => true
  | .marker _ _ _ => false

def label : Rec D → Option Text
  | .sample _ _ _ => none
  | .marker _ _ label => some label

end Rec

inductive Signal where
  | sigint
  | sigterm
  deriving DecidableEq, Repr

def Signal.number : Signal → ℤ
  | .sigint => 2
  | .sigterm => 15

/-- A line of the stream. -/
inductive Line (D : Type*) where
  | start
  | record (r : Rec D)
  | childSpawnError (error : Text)
  | childExit (returncode : Option ℤ) (timedOut : Bool) (interrupted : Option Signal)
  | stop (exitCode : ℤ)

/-- A line between `start` and `stop`. -/
def Line.IsInner {D : Type*} : Line D → Prop
  | .start => False
  | .stop _ => False
  | _ => True

/-- The records of a stream. -/
def recordsOf {D : Type*} (stream : List (Line D)) : List (Rec D) :=
  stream.filterMap fun line => match line with
    | .record r => some r
    | _ => none

/-! ### The state -/

/-- The child, as the operating system has it. -/
inductive Child where
  | none
  | running
  | exited (status : ℤ)
  deriving DecidableEq, Repr

/-- The variables of `run_wrap` and of its sampler. -/
structure Wrap (D : Type*) where
  stream : List (Line D)
  records : List (Rec D)
  drops : ℕ
  lateTicks : ℕ
  markersOffset : ℕ
  /-- `stop_signal`; `stop` is set where it is. -/
  stopSignal : Option Signal
  child : Child
  /-- `proc.returncode`. -/
  returncode : Option ℤ
  childReturncode : Option ℤ
  timedOut : Bool
  spawnError : Option Text
  exitCode : ℤ
  /-- There is an exception, maybe on its way through `finally`. -/
  raised : Bool

/-- What ends a phase. -/
inductive Finish where
  | deadline
  | exit (rc : ℤ)
  | timeout
  deriving DecidableEq, Repr

/-- Why the process group is terminated. -/
inductive Why where
  | timeout
  | interrupted
  | final
  deriving DecidableEq, Repr

/-- The points of the code. -/
inductive Control where
  /-- Before the `start` event. -/
  | start
  /-- Before `one_sample`. -/
  | sample (phase : PhaseName)
  /-- Before `finished()`. -/
  | poll (phase : PhaseName)
  /-- Before `result is not None or self.stop.is_set()`. -/
  | check (phase : PhaseName) (result : Option Finish)
  /-- Before the command is spawned. -/
  | spawn
  /-- After the load. -/
  | ended (result : Option Finish)
  /-- Before `_terminate_group`. -/
  | terminate (why : Why)
  /-- Before `proc.wait()`. -/
  | wait (why : Why)
  /-- Before `self.stop.is_set() and proc.poll() is None`. -/
  | reap
  /-- Before the `child_exit` event. -/
  | settle
  /-- Before the exit code. -/
  | decide
  /-- Before the idle phase after the load. -/
  | after
  | finally_
  /-- Before the `stop` event. -/
  | stopping
  | returned
  /-- An exception has left `run_wrap`. -/
  | raised
  deriving DecidableEq, Repr

/-- The arguments. -/
structure WrapArgs where
  idleWindow : ℚ
  timeout : ℚ
  /-- How many collectors there are. -/
  collectors : ℕ

section Run

variable {D : Type*} (args : WrapArgs)

/-- The state before the `start` event. -/
def Wrap.init : Wrap D where
  stream := []
  records := []
  drops := 0
  lateTicks := 0
  markersOffset := 0
  stopSignal := none
  child := .none
  returncode := none
  childReturncode := none
  timedOut := false
  spawnError := none
  exitCode := 0
  raised := false

/-- The first phase. -/
def WrapArgs.first : Control := if 0 < args.idleWindow then .sample .idleBefore else .spawn

/-- What `one_sample` reads: a batch of every collector, if it gave one, the time, and the marker
file with the times of its markers. -/
structure Tick (D : Type*) where
  batches : List (Option (List D))
  t : ℚ
  file : Option Bytes
  markerTimes : ℕ → ℚ

/-- The records of `one_sample`. -/
def Tick.records (tick : Tick D) (phase : PhaseName) (offset : ℕ) : List (Rec D) :=
  .sample phase tick.t (tick.batches.flatMap fun batch => batch.getD []) ::
    (readMarkerLines tick.file offset).1.zipIdx.map fun (label, i) =>
      .marker phase (tick.markerTimes i) label

/-- `one_sample(phase, sink)`. -/
def Wrap.oneSample (s : Wrap D) (phase : PhaseName) (tick : Tick D) : Wrap D :=
  let new := tick.records phase s.markersOffset
  { s with
    stream := s.stream ++ new.map .record
    records := s.records ++ new
    drops := s.drops + tick.batches.countP Option.isNone
    markersOffset := (readMarkerLines tick.file s.markersOffset).2 }

/-- `one_sample` where the write of its record `k` fails: the record is in memory already. -/
def Wrap.brokenSample (s : Wrap D) (phase : PhaseName) (tick : Tick D) (k : ℕ) : Wrap D :=
  let new := tick.records phase s.markersOffset
  { s with
    stream := s.stream ++ (new.take k).map .record
    records := s.records ++ new.take (k + 1)
    drops := s.drops + tick.batches.countP Option.isNone
    -- the markers are polled after the first record
    markersOffset := if k = 0 then s.markersOffset
      else (readMarkerLines tick.file s.markersOffset).2
    raised := true }

/-- What the ticks of a run have read, each in its phase. -/
abbrev Ticks (D : Type*) : Type _ := List (PhaseName × Tick D)

/-- A sampler that has polled the marker file at every tick. -/
def Sampler.polls (sampler : Sampler) (ticks : Ticks D) : Sampler :=
  (ticks.map fun tick => tick.2.file).foldl Sampler.pollMarkers sampler

/-- The records of the ticks of a sampler. -/
def sampled : Sampler → Ticks D → List (Rec D)
  | _, [] => []
  | sampler, (phase, tick) :: ticks =>
    tick.records phase sampler.markersOffset ++ sampled (sampler.pollMarkers tick.file) ticks

/-- The exit code of a run whose child has ended. -/
def exitOf (timedOut : Bool) (signal : Option Signal) (childReturncode : Option ℤ)
    (exitCode : ℤ) : ℤ :=
  if timedOut then 124
  else
    match signal, childReturncode with
    | some signal, _ => 128 + signal.number
    | none, some rc => if 0 ≤ rc then rc else 128 + rc.natAbs
    | none, none => exitCode

/-- Where the sampling of a phase leads. -/
def leaves (result : Option Finish) : PhaseName → Control
  | .idleBefore => .spawn
  | .load => .ended result
  | .idleAfter => .finally_

/-- The steps of `run_wrap`, each with the ticks it makes. -/
inductive Step : Ticks D → Control × Wrap D → Control × Wrap D → Prop
  | start {s : Wrap D} : Step [] (.start, s) (args.first, { s with stream := s.stream ++ [.start] })
  | startFails {s : Wrap D} : Step [] (.start, s) (.finally_, { s with raised := true })
  /-- A signal is handled. -/
  | signal {c : Control} {s : Wrap D} (signal : Signal) : c ≠ .returned → c ≠ .raised →
      Step [] (c, s) (c, { s with stopSignal := some signal })
  /-- The child ends. -/
  | childEnds {c : Control} {s : Wrap D} (status : ℤ) : s.child = .running → c ≠ .returned →
      c ≠ .raised →
      Step [] (c, s) (c, { s with child := .exited status })
  | sample {phase : PhaseName} {s : Wrap D} (tick : Tick D) :
      tick.batches.length = args.collectors →
      Step [(phase, tick)] (.sample phase, s) (.poll phase, s.oneSample phase tick)
  | sampleFails {phase : PhaseName} {s : Wrap D} (tick : Tick D) (k : ℕ) :
      tick.batches.length = args.collectors →
      k < (tick.records phase s.markersOffset).length →
      Step [(phase, tick)] (.sample phase, s) (.finally_, s.brokenSample phase tick k)
  /-- The idle window is over, or not. -/
  | pollIdle {phase : PhaseName} {s : Wrap D} (result : Option Finish) : phase ≠ .load →
      (∀ r ∈ result, r = .deadline) → Step [] (.poll phase, s) (.check phase result, s)
  /-- `proc.wait(timeout=0)` returns. -/
  | pollExit {s : Wrap D} (rc : ℤ) : s.child = .exited rc →
      Step [] (.poll .load, s) (.check .load (some (.exit rc)), { s with returncode := some rc })
  | pollTimeout {s : Wrap D} : s.child = .running → 0 < args.timeout →
      Step [] (.poll .load, s) (.check .load (some .timeout), s)
  | pollNone {s : Wrap D} : s.child = .running → Step [] (.poll .load, s) (.check .load none, s)
  | leave {phase : PhaseName} {result : Option Finish} {s : Wrap D} :
      result ≠ none ∨ s.stopSignal ≠ none →
      Step [] (.check phase result, s) (leaves result phase, s)
  /-- The next tick, late or not. -/
  | again {phase : PhaseName} {s : Wrap D} (late : Bool) : s.stopSignal = none →
      Step [] (.check phase none, s)
        (.sample phase, { s with lateTicks := s.lateTicks + late.toNat })
  | spawnStopped {s : Wrap D} (signal : Signal) : s.stopSignal = some signal →
      Step [] (.spawn, s) (.finally_, { s with exitCode := 128 + signal.number })
  | spawn {s : Wrap D} : s.stopSignal = none →
      Step [] (.spawn, s) (.sample .load, { s with child := .running })
  | spawnError {s : Wrap D} (error : Text) : s.stopSignal = none →
      Step [] (.spawn, s) (.finally_, { s with
        spawnError := some error, stream := s.stream ++ [.childSpawnError error], exitCode := 2 })
  | spawnErrorFails {s : Wrap D} (error : Text) : s.stopSignal = none →
      Step [] (.spawn, s) (.finally_, { s with spawnError := some error, raised := true })
  | endedExit {s : Wrap D} (rc : ℤ) :
      Step [] (.ended (some (.exit rc)), s) (.reap, { s with childReturncode := some rc })
  | endedTimeout {s : Wrap D} :
      Step [] (.ended (some .timeout), s)
        (.terminate .timeout, { s with childReturncode := some (-1), timedOut := true })
  | endedNone {s : Wrap D} : Step [] (.ended none, s) (.reap, s)
  /-- The group ends within the grace. -/
  | terminate {why : Why} {s : Wrap D} (rc : ℤ) : s.child = .exited rc →
      Step [] (.terminate why, s) (.wait why, { s with returncode := some rc })
  /-- The group is killed after the grace. -/
  | kill {why : Why} {s : Wrap D} : s.child = .running → Step [] (.terminate why, s) (.wait why, s)
  | waitTimeout {s : Wrap D} (rc : ℤ) : s.child = .exited rc →
      Step [] (.wait .timeout, s)
        (.reap, { s with returncode := some rc, childReturncode := some rc })
  | waitInterrupted {s : Wrap D} (rc : ℤ) : s.child = .exited rc →
      Step [] (.wait .interrupted, s)
        (.settle, { s with returncode := some rc, childReturncode := some rc })
  | waitFinal {s : Wrap D} (rc : ℤ) : s.child = .exited rc →
      Step [] (.wait .final, s) (.stopping, { s with returncode := some rc })
  | reapRunning {s : Wrap D} : s.stopSignal ≠ none → s.child = .running →
      Step [] (.reap, s) (.terminate .interrupted, s)
  | reapEnded {s : Wrap D} (rc : ℤ) : s.stopSignal ≠ none → s.child = .exited rc →
      Step [] (.reap, s) (.settle, { s with returncode := some rc })
  | reapUnstopped {s : Wrap D} : s.stopSignal = none → Step [] (.reap, s) (.settle, s)
  | settle {s : Wrap D} : s.childReturncode ≠ none →
      Step [] (.settle, s) (.decide, { s with
        stream := s.stream ++ [.childExit s.childReturncode s.timedOut s.stopSignal] })
  | settleEnded {s : Wrap D} (rc : ℤ) : s.childReturncode = none → s.child = .exited rc →
      Step [] (.settle, s) (.decide, { s with
        returncode := some rc
        childReturncode := some rc
        stream := s.stream ++ [.childExit (some rc) s.timedOut s.stopSignal] })
  | settleRunning {s : Wrap D} : s.childReturncode = none → s.child = .running →
      Step [] (.settle, s)
        (.decide, { s with stream := s.stream ++ [.childExit none s.timedOut s.stopSignal] })
  | settleFails {s : Wrap D} : Step [] (.settle, s) (.finally_, { s with raised := true })
  | decide {s : Wrap D} : Step [] (.decide, s) (.after, { s with
      exitCode := exitOf s.timedOut s.stopSignal s.childReturncode s.exitCode })
  | idleAfter {s : Wrap D} : 0 < args.idleWindow → s.stopSignal = none →
      Step [] (.after, s) (.sample .idleAfter, s)
  | noIdleAfter {s : Wrap D} : ¬(0 < args.idleWindow ∧ s.stopSignal = none) →
      Step [] (.after, s) (.finally_, s)
  | finallyRunning {s : Wrap D} : s.child = .running → Step [] (.finally_, s) (.terminate .final, s)
  | finallyEnded {s : Wrap D} (rc : ℤ) : s.child = .exited rc →
      Step [] (.finally_, s) (.stopping, { s with returncode := some rc })
  | finallyNone {s : Wrap D} : s.child = .none → Step [] (.finally_, s) (.stopping, s)
  | stop {s : Wrap D} : Step [] (.stopping, s)
      (if s.raised then .raised else .returned, { s with stream := s.stream ++ [.stop s.exitCode] })
  /-- Closing, the summary or the chart fails. -/
  | closeFails {s : Wrap D} : Step [] (.stopping, s) (.raised, { s with
      stream := s.stream ++ [.stop s.exitCode], raised := true })
  | stopFails {s : Wrap D} : Step [] (.stopping, s) (.raised, { s with raised := true })

/-- A point of a run, after these ticks. -/
inductive Reached : Ticks D → Control × Wrap D → Prop
  | start : Reached [] (.start, Wrap.init)
  | step {ticks new : Ticks D} {p p' : Control × Wrap D} :
      Reached ticks p → Step args new p p' → Reached (ticks ++ new) p'

/-! ### What a step writes -/

variable {args} {ticks new : Ticks D}

theorem polls_append (sampler : Sampler) (ticks : Ticks D) (phase : PhaseName) (tick : Tick D) :
    sampler.polls (ticks ++ [(phase, tick)]) = (sampler.polls ticks).pollMarkers tick.file := by
  rw [Sampler.polls, List.map_append, List.foldl_append]
  rfl

/-- A tick more: its markers begin where the tailing has come to. -/
theorem sampled_append (ticks : Ticks D) (phase : PhaseName) (tick : Tick D) : ∀ sampler : Sampler,
    sampled sampler (ticks ++ [(phase, tick)])
      = sampled sampler ticks ++ tick.records phase (sampler.polls ticks).markersOffset := by
  induction ticks with
  | nil => exact fun sampler => List.append_nil _
  | cons first ticks ih =>
    intro sampler
    rw [List.cons_append, sampled, ih, sampled, List.append_assoc]
    rfl

theorem recordsOf_append (as bs : List (Line D)) :
    recordsOf (as ++ bs) = recordsOf as ++ recordsOf bs :=
  List.filterMap_append

theorem recordsOf_map_record (rs : List (Rec D)) : recordsOf (rs.map .record) = rs := by
  rw [recordsOf, List.filterMap_map]
  exact List.filterMap_some

/-- The fields that a sample writes are as they were, but for a line that is no record. -/
structure Keeps (s s' : Wrap D) (lines : List (Line D)) : Prop where
  stream : s'.stream = s.stream ++ lines
  records : s'.records = s.records
  drops : s'.drops = s.drops
  markersOffset : s'.markersOffset = s.markersOffset
  raised : s.raised = true → s'.raised = true

theorem keeps_self {s s' : Wrap D} (hstream : s'.stream = s.stream)
    (hrecords : s'.records = s.records)
    (hdrops : s'.drops = s.drops) (hoffset : s'.markersOffset = s.markersOffset)
    (hraised : s.raised = true → s'.raised = true) : Keeps s s' [] :=
  ⟨by rw [hstream, List.append_nil], hrecords, hdrops, hoffset, hraised⟩

theorem first_eq (args : WrapArgs) : args.first = .sample .idleBefore ∨ args.first = .spawn := by
  rw [WrapArgs.first]
  split_ifs <;> simp

theorem first_ne (args : WrapArgs) : args.first ≠ .start ∧ args.first ≠ .returned := by
  rcases first_eq args with h | h <;> simp [h]

/-- A step samples, writes a line, or writes nothing and stays where it is before a sample. -/
theorem step_writes {c c' : Control} {s s' : Wrap D} (h : Step args new (c, s) (c', s')) :
    (∃ phase tick, new = [(phase, tick)] ∧ c = .sample phase ∧
        tick.batches.length = args.collectors ∧ s'.child = s.child ∧
        (s' = s.oneSample phase tick ∧ c' = .poll phase ∨
          ∃ k, s' = s.brokenSample phase tick k ∧ c' = .finally_)) ∨
      new = [] ∧
        ((c = .start ∧ Keeps s s' [.start] ∧ c' = args.first) ∨
          (∃ line : Line D, line.IsInner ∧ recordsOf [line] = [] ∧ Keeps s s' [line] ∧
            (c' ≠ .start ∧ c' ≠ .returned ∧ c' ≠ .raised) ∧ c ≠ .start ∧
              ∀ phase, c ≠ .sample phase) ∨
          (c = .stopping ∧ Keeps s s' [.stop s'.exitCode] ∧
            (c' = .raised ∨ c' = .returned ∧ s.raised = false ∧ s'.raised = false)) ∨
          (Keeps s s' [] ∧ c' ≠ .returned ∧ (∀ phase, c = .sample phase → c' = .sample phase) ∧
            (c' = .start → c = .start) ∧ (s'.raised = false → c = .start → c' = .start))) := by
  have hnothing : s'.stream = s.stream → s'.records = s.records → s'.drops = s.drops →
      s'.markersOffset = s.markersOffset → (s.raised = true → s'.raised = true) → c' ≠ .returned →
      (∀ phase, c = .sample phase → c' = .sample phase) →
      (c' = .start → c = .start) → (s'.raised = false → c = .start → c' = .start) →
      Keeps s s' [] ∧ c' ≠ .returned ∧ (∀ phase, c = .sample phase → c' = .sample phase) ∧
        (c' = .start → c = .start) ∧ (s'.raised = false → c = .start → c' = .start) :=
    fun h1 h2 h3 h4 h5 h6 h7 h8 h9 => ⟨keeps_self h1 h2 h3 h4 h5, h6, h7, h8, h9⟩
  cases h with
  | start => exact .inr ⟨rfl, .inl ⟨rfl, ⟨rfl, rfl, rfl, rfl, id⟩, rfl⟩⟩
  | sample tick hlen => exact .inl ⟨_, tick, rfl, rfl, hlen, rfl, .inl ⟨rfl, rfl⟩⟩
  | sampleFails tick k hlen _ => exact .inl ⟨_, tick, rfl, rfl, hlen, rfl, .inr ⟨k, rfl, rfl⟩⟩
  | spawnError error _ =>
    exact .inr ⟨rfl, .inr (.inl ⟨.childSpawnError error, trivial, rfl, ⟨rfl, rfl, rfl, rfl, id⟩,
      by simp, by simp, by simp⟩)⟩
  | settle _ =>
    exact .inr ⟨rfl, .inr (.inl ⟨.childExit _ _ _, trivial, rfl, ⟨rfl, rfl, rfl, rfl, id⟩,
      by simp, by simp, by simp⟩)⟩
  | settleEnded rc _ _ =>
    exact .inr ⟨rfl, .inr (.inl ⟨.childExit _ _ _, trivial, rfl, ⟨rfl, rfl, rfl, rfl, id⟩,
      by simp, by simp, by simp⟩)⟩
  | settleRunning _ _ =>
    exact .inr ⟨rfl, .inr (.inl ⟨.childExit _ _ _, trivial, rfl, ⟨rfl, rfl, rfl, rfl, id⟩,
      by simp, by simp, by simp⟩)⟩
  | stop =>
    refine .inr ⟨rfl, .inr (.inr (.inl ⟨rfl, ⟨rfl, rfl, rfl, rfl, id⟩, ?_⟩))⟩
    cases hraised : s.raised
    · exact .inr ⟨rfl, rfl, rfl⟩
    · exact .inl rfl
  | closeFails =>
    exact .inr ⟨rfl, .inr (.inr (.inl ⟨rfl, ⟨rfl, rfl, rfl, rfl, fun _ => rfl⟩, .inl rfl⟩))⟩
  | signal signal hreturned _ =>
    exact .inr ⟨rfl, .inr (.inr (.inr
      (hnothing rfl rfl rfl rfl id hreturned (fun _ => id) id fun _ => id)))⟩
  | childEnds status _ hreturned _ =>
    exact .inr ⟨rfl, .inr (.inr (.inr
      (hnothing rfl rfl rfl rfl id hreturned (fun _ => id) id fun _ => id)))⟩
  | @leave phase _ _ _ =>
    refine .inr ⟨rfl, .inr (.inr (.inr (hnothing rfl rfl rfl rfl id ?_ (by simp) ?_ (by simp))))⟩
    · cases phase <;> simp [leaves]
    · cases phase <;> simp [leaves]
  | startFails =>
    exact .inr ⟨rfl, .inr (.inr (.inr
      (hnothing rfl rfl rfl rfl (fun _ => rfl) (by simp) (by simp) (by simp) (by simp))))⟩
  | spawnErrorFails error _ =>
    exact .inr ⟨rfl, .inr (.inr (.inr
      (hnothing rfl rfl rfl rfl (fun _ => rfl) (by simp) (by simp) (by simp) (by simp))))⟩
  | settleFails =>
    exact .inr ⟨rfl, .inr (.inr (.inr
      (hnothing rfl rfl rfl rfl (fun _ => rfl) (by simp) (by simp) (by simp) (by simp))))⟩
  | stopFails =>
    exact .inr ⟨rfl, .inr (.inr (.inr
      (hnothing rfl rfl rfl rfl (fun _ => rfl) (by simp) (by simp) (by simp) (by simp))))⟩
  | _ =>
    exact .inr ⟨rfl, .inr (.inr (.inr
      (hnothing rfl rfl rfl rfl id (by simp) (by simp) (by simp) (by simp))))⟩

/-- A step spawns the command, or it does not change whether there is one. -/
theorem step_child {c c' : Control} {s s' : Wrap D} (h : Step args new (c, s) (c', s')) :
    (c' = .sample .load ∧ s'.child = .running) ∨ (s'.child = .none ↔ s.child = .none) := by
  cases h with
  | spawn _ => exact .inl ⟨rfl, rfl⟩
  | childEnds status hrunning _ _ => exact .inr (by simp [hrunning])
  | _ => exact .inr Iff.rfl

/-! ### The stream and the memory -/

/-- What the stream has of the memory, and the memory of the ticks. -/
structure Logged (args : WrapArgs) (ticks : Ticks D) (c : Control) (s : Wrap D) : Prop where
  /-- No exception has been raised, or the last record is only in memory. -/
  records : recordsOf s.stream <+: s.records ∧ (s.raised = false → recordsOf s.stream = s.records)
  sampled : s.records <+: sampled .init ticks ∧ (s.raised = false → s.records = sampled .init ticks)
  begun : c = .start → s.stream = []
  inner : s.raised = false → c ≠ .start → c ≠ .returned → c ≠ .raised →
    ∃ lines, s.stream = .start :: lines ∧ ∀ line ∈ lines, line.IsInner
  stopped : c = .returned → s.raised = false ∧
    ∃ lines, s.stream = .start :: lines ++ [.stop s.exitCode] ∧ ∀ line ∈ lines, line.IsInner
  drops : s.drops ≤ args.collectors * s.records.countP Rec.isSample
  /-- The markers are those of one tailing of the file. -/
  polled : s.raised = false →
    Sampler.init.polls ticks = ⟨s.markersOffset, s.records.filterMap Rec.label⟩

theorem labels_tick (tick : Tick D) (phase : PhaseName) (offset : ℕ) :
    (tick.records phase offset).filterMap Rec.label = (readMarkerLines tick.file offset).1 := by
  rw [Tick.records, List.filterMap_cons_none rfl, List.filterMap_map]
  calc _ = (readMarkerLines tick.file offset).1.zipIdx.filterMap fun x => some x.1 := rfl
    _ = _ := by rw [List.filterMap_eq_map', List.zipIdx_map_fst]

theorem samples_tick (tick : Tick D) (phase : PhaseName) (offset : ℕ) :
    (tick.records phase offset).countP Rec.isSample = 1 := by
  have hmarkers : ((readMarkerLines tick.file offset).1.zipIdx.map fun (label, i) =>
      (Rec.marker phase (tick.markerTimes i) label : Rec D)).countP Rec.isSample = 0 := by
    rw [List.countP_eq_zero]
    intro r hr
    obtain ⟨_, -, rfl⟩ := List.mem_map.mp hr
    exact Bool.false_ne_true
  rw [Tick.records, List.countP_cons_of_pos rfl, hmarkers]

theorem inner_append {lines : List (Line D)} {stream : List (Line D)}
    (h : ∃ before, stream = .start :: before ∧ ∀ line ∈ before, line.IsInner)
    (hlines : ∀ line ∈ lines, line.IsInner) :
    ∃ before, stream ++ lines = .start :: before ∧ ∀ line ∈ before, line.IsInner := by
  obtain ⟨before, rfl, hbefore⟩ := h
  exact ⟨before ++ lines, rfl, fun line hl =>
    (List.mem_append.mp hl).elim (hbefore line) (hlines line)⟩

theorem inner_records (rs : List (Rec D)) : ∀ line ∈ rs.map Line.record, line.IsInner := by
  intro line hl
  obtain ⟨r, -, rfl⟩ := List.mem_map.mp hl
  trivial

theorem drops_sample {tick : Tick D} (hlen : tick.batches.length = args.collectors)
    {drops samples : ℕ}
    (h : drops ≤ args.collectors * samples) {k : ℕ} (hk : 1 ≤ k) :
    drops + tick.batches.countP Option.isNone ≤ args.collectors * (samples + k) := by
  have hcount : tick.batches.countP Option.isNone ≤ args.collectors := hlen ▸ List.countP_le_length
  calc drops + tick.batches.countP Option.isNone ≤ args.collectors * samples +
    args.collectors * 1 := by omega
    _ ≤ args.collectors * samples + args.collectors * k :=
      Nat.add_le_add_left (Nat.mul_le_mul_left _ hk) _
    _ = _ := (Nat.mul_add _ _ _).symm

theorem logged_sample {s : Wrap D} {phase : PhaseName} (h : Logged args ticks (.sample phase) s)
    (hraised : s.raised = false) {tick : Tick D} (hlen : tick.batches.length = args.collectors) :
    Logged args (ticks ++ [(phase, tick)]) (.poll phase) (s.oneSample phase tick) where
  records := by
    have heq : recordsOf (s.oneSample phase tick).stream = (s.oneSample phase tick).records := by
      rw [Wrap.oneSample, recordsOf_append, recordsOf_map_record, h.records.2 hraised]
    exact ⟨heq ▸ List.prefix_rfl, fun _ => heq⟩
  sampled := by
    have heq : (s.oneSample phase tick).records = sampled .init (ticks ++ [(phase, tick)]) := by
      rw [sampled_append, h.polled hraised, ← h.sampled.2 hraised]
      rfl
    exact ⟨heq ▸ List.prefix_rfl, fun _ => heq⟩
  begun hc := by cases hc
  inner _ _ _ _ :=
    inner_append (h.inner hraised (by simp) (by simp) (by simp)) (inner_records _)
  stopped hc := by cases hc
  drops := by
    rw [Wrap.oneSample, List.countP_append, samples_tick]
    exact drops_sample hlen h.drops le_rfl
  polled _ := by
    rw [polls_append, h.polled hraised, Sampler.pollMarkers, Wrap.oneSample, List.filterMap_append,
      labels_tick]

theorem logged_broken {s : Wrap D} {phase : PhaseName} (h : Logged args ticks (.sample phase) s)
    (hraised : s.raised = false) {tick : Tick D} {k : ℕ}
    (hlen : tick.batches.length = args.collectors) :
    Logged args (ticks ++ [(phase, tick)]) .finally_ (s.brokenSample phase tick k) where
  records := by
    refine ⟨?_, fun hr => by cases hr⟩
    rw [Wrap.brokenSample, recordsOf_append, recordsOf_map_record, h.records.2 hraised]
    exact List.prefix_append_right_inj _ |>.mpr (List.take_prefix_take_left (by omega))
  sampled := by
    refine ⟨?_, fun hr => by cases hr⟩
    rw [sampled_append, h.polled hraised, ← h.sampled.2 hraised, Wrap.brokenSample]
    exact List.prefix_append_right_inj _ |>.mpr (List.take_prefix ..)
  begun hc := by cases hc
  inner hr := by cases hr
  stopped hc := by cases hc
  drops := by
    have hfirst : 1 ≤ ((tick.records phase s.markersOffset).take (k + 1)).countP Rec.isSample := by
      rw [Tick.records, List.take_succ_cons, List.countP_cons_of_pos rfl]
      omega
    rw [Wrap.brokenSample, List.countP_append]
    exact drops_sample hlen h.drops hfirst
  polled hr := by cases hr

theorem Keeps.unraised {s s' : Wrap D} {lines : List (Line D)} (h : Keeps s s' lines)
    (hr : s'.raised = false) : s.raised = false :=
  Bool.eq_false_iff.mpr fun hs => by simp [h.raised hs] at hr

theorem Logged.keeps {c c' : Control} {s s' : Wrap D} {lines : List (Line D)}
    (h : Logged args ticks c s) (hkeeps : Keeps s s' lines) (hnone : recordsOf lines = [])
    (hbegun : c' = .start → s'.stream = [])
    (hinner : s'.raised = false → c' ≠ .start → c' ≠ .returned → c' ≠ .raised →
      ∃ lines, s'.stream = .start :: lines ∧ ∀ line ∈ lines, line.IsInner)
    (hstopped : c' = .returned → s'.raised = false ∧
      ∃ lines, s'.stream = .start :: lines ++ [.stop s'.exitCode] ∧ ∀ line ∈ lines, line.IsInner) :
    Logged args ticks c' s' where
  records := by
    rw [hkeeps.stream, hkeeps.records, recordsOf_append, hnone, List.append_nil]
    exact ⟨h.records.1, fun hr => h.records.2 (hkeeps.unraised hr)⟩
  sampled := by
    rw [hkeeps.records]
    exact ⟨h.sampled.1, fun hr => h.sampled.2 (hkeeps.unraised hr)⟩
  begun := hbegun
  inner := hinner
  stopped := hstopped
  drops := by
    rw [hkeeps.drops, hkeeps.records]
    exact h.drops
  polled hr := by
    rw [hkeeps.markersOffset, hkeeps.records]
    exact h.polled (hkeeps.unraised hr)

theorem step_logged {c c' : Control} {s s' : Wrap D} (hstep : Step args new (c, s) (c', s'))
    (h : Logged args ticks c s) (hsample : ∀ phase, c = .sample phase → s.raised = false)
    (hend : c ≠ .returned ∧ c ≠ .raised) : Logged args (ticks ++ new) c' s' := by
  rcases step_writes hstep with ⟨phase, tick, rfl, rfl, hlen, -, ⟨rfl, rfl⟩ | ⟨k, rfl, rfl⟩⟩ |
    ⟨rfl, hwrites⟩
  · exact logged_sample h (hsample phase rfl) hlen
  · exact logged_broken h (hsample phase rfl) hlen
  rw [List.append_nil]
  rcases hwrites with ⟨rfl, hkeeps, rfl⟩ | ⟨line, hinner, hnone, hkeeps, hc', hc, -⟩ |
    ⟨rfl, hkeeps, hraised⟩ | ⟨hkeeps, hreturned, -, hstart, hstays⟩
  · refine h.keeps hkeeps rfl (fun hc => absurd hc (first_ne args).1)
      (fun _ _ _ _ => ⟨[], ?_, by simp⟩)
      fun hc => absurd hc (first_ne args).2
    rw [hkeeps.stream, h.begun rfl, List.nil_append]
  · refine h.keeps hkeeps hnone (fun hc => absurd hc hc'.1) (fun hr _ _ _ => ?_)
      fun hc => absurd hc hc'.2.1
    rw [hkeeps.stream]
    exact inner_append (h.inner (hkeeps.unraised hr) hc hend.1 hend.2) (by simpa using hinner)
  · rcases hraised with rfl | ⟨rfl, hs, hs'⟩
    · exact h.keeps hkeeps rfl (by simp) (by simp) (by simp)
    · refine h.keeps hkeeps rfl (by simp) (by simp) fun _ => ⟨hs', ?_⟩
      obtain ⟨lines, hlines, hinner⟩ := h.inner hs (by simp) hend.1 hend.2
      exact ⟨lines, by rw [hkeeps.stream, hlines], hinner⟩
  · have hstream : s'.stream = s.stream := by rw [hkeeps.stream, List.append_nil]
    refine h.keeps hkeeps rfl (fun hc => hstream.trans (h.begun (hstart hc))) (fun hr hc _ _ => ?_)
      fun hc => absurd hc hreturned
    rw [hstream]
    exact h.inner (hkeeps.unraised hr) (mt (hstays hr) hc) hend.1 hend.2

/-! ### The points of the code -/

/-- No command has been spawned. -/
structure Fresh (s : Wrap D) : Prop where
  child : s.child = .none
  childReturncode : s.childReturncode = none
  timedOut : s.timedOut = false
  spawnError : s.spawnError = none
  raised : s.raised = false

/-- The command has been spawned. -/
structure Spawned (s : Wrap D) : Prop where
  child : s.child ≠ .none
  spawnError : s.spawnError = none
  raised : s.raised = false

/-- It is not known to have ended. -/
structure Loading (s : Wrap D) : Prop extends Spawned s where
  childReturncode : s.childReturncode = none
  timedOut : s.timedOut = false

/-- What `finished` has seen. -/
structure Saw (s : Wrap D) (result : Option Finish) : Prop where
  exit : ∀ rc, result = some (.exit rc) → s.child = .exited rc
  deadline : result ≠ some .deadline

/-- A status that is known is the child's. -/
def Known (s : Wrap D) : Prop := ∀ rc, s.childReturncode = some rc → s.child = .exited rc

/-- The command has ended, and the exit code is set, maybe after a signal. -/
structure Ended (s : Wrap D) : Prop extends Spawned s where
  status : ∃ rc, s.child = .exited rc ∧ s.childReturncode = some rc ∧
    ∃ signal, s.exitCode = exitOf s.timedOut signal (some rc) 0 ∧
      (signal ≠ none → s.stopSignal ≠ none)

/-- There was no command to end: a signal came before it, or it could not be spawned. -/
structure Unspawned (s : Wrap D) : Prop where
  child : s.child = .none
  childReturncode : s.childReturncode = none
  timedOut : s.timedOut = false
  raised : s.raised = false
  exitCode : s.spawnError ≠ none ∧ s.exitCode = 2 ∨
    s.spawnError = none ∧ s.stopSignal ≠ none ∧ ∃ signal : Signal, s.exitCode = 128 + signal.number

/-- What holds at a point. -/
def At (s : Wrap D) : Control → Prop
  | .start => Fresh s
  | .sample .idleBefore => Fresh s
  | .poll .idleBefore => Fresh s
  | .check .idleBefore _ => Fresh s
  | .spawn => Fresh s
  | .sample .load => Loading s
  | .poll .load => Loading s
  | .check .load result => Loading s ∧ Saw s result
  | .ended result => Loading s ∧ Saw s result ∧ (result = none → s.stopSignal ≠ none)
  | .terminate .timeout => Spawned s
  | .wait .timeout => Spawned s
  | .reap => Spawned s ∧ Known s ∧ (s.childReturncode = none → s.stopSignal ≠ none)
  | .terminate .interrupted => Spawned s
  | .wait .interrupted => Spawned s
  | .settle => Spawned s ∧ Known s ∧ (s.childReturncode = none → ∃ rc, s.child = .exited rc)
  | .decide => Spawned s ∧ ∃ rc, s.child = .exited rc ∧ s.childReturncode = some rc
  | .after => Ended s
  | .sample .idleAfter => Ended s
  | .poll .idleAfter => Ended s
  | .check .idleAfter _ => Ended s
  | .finally_ => s.raised = true ∨ Ended s ∨ Unspawned s
  | .terminate .final => s.raised = true
  | .wait .final => s.raised = true
  | .stopping => s.child ≠ .running ∧ (s.raised = true ∨ Ended s ∨ Unspawned s)
  | .returned => s.child ≠ .running ∧ (Ended s ∨ Unspawned s)
  | .raised => s.child ≠ .running

/-- What is known of the child and of the exit code is the same, and a signal stays. -/
structure Agree (s s' : Wrap D) : Prop where
  child : s'.child = s.child
  childReturncode : s'.childReturncode = s.childReturncode
  timedOut : s'.timedOut = s.timedOut
  spawnError : s'.spawnError = s.spawnError
  exitCode : s'.exitCode = s.exitCode
  raised : s'.raised = s.raised
  stopSignal : s.stopSignal ≠ none → s'.stopSignal ≠ none

section Agree

variable {s s' : Wrap D} (ha : Agree s s')
include ha

theorem Fresh.agree (h : Fresh s) : Fresh s' :=
  ⟨ha.child.trans h.child, ha.childReturncode.trans h.childReturncode, ha.timedOut.trans h.timedOut,
    ha.spawnError.trans h.spawnError, ha.raised.trans h.raised⟩

theorem Spawned.agree (h : Spawned s) : Spawned s' :=
  ⟨ha.child ▸ h.child, ha.spawnError.trans h.spawnError, ha.raised.trans h.raised⟩

theorem Loading.agree (h : Loading s) : Loading s' :=
  ⟨h.toSpawned.agree ha, ha.childReturncode.trans h.childReturncode, ha.timedOut.trans h.timedOut⟩

theorem Saw.agree {result : Option Finish} (h : Saw s result) : Saw s' result :=
  ⟨fun rc hrc => ha.child.trans (h.exit rc hrc), h.deadline⟩

theorem Known.agree (h : Known s) : Known s' :=
  fun rc hrc => ha.child.trans (h rc (ha.childReturncode ▸ hrc))

theorem Ended.agree (h : Ended s) : Ended s' := by
  obtain ⟨rc, hchild, hrc, signal, hexit, hsignal⟩ := h.status
  refine ⟨h.toSpawned.agree ha, rc, ha.child.trans hchild, ha.childReturncode.trans hrc, signal, ?_,
    fun hs => ha.stopSignal (hsignal hs)⟩
  rw [ha.exitCode, ha.timedOut, hexit]

theorem Unspawned.agree (h : Unspawned s) : Unspawned s' := by
  refine ⟨ha.child.trans h.child, ha.childReturncode.trans h.childReturncode,
    ha.timedOut.trans h.timedOut,
    ha.raised.trans h.raised, ?_⟩
  rw [ha.exitCode, ha.spawnError]
  exact h.exitCode.imp_right fun ⟨herror, hstop, hexit⟩ => ⟨herror, ha.stopSignal hstop, hexit⟩

theorem At.agree {c : Control} (h : At s c) : At s' c := by
  have hclosing : (s.raised = true ∨ Ended s ∨ Unspawned s) →
      s'.raised = true ∨ Ended s' ∨ Unspawned s' :=
    Or.imp (fun h => ha.raised.trans h) (Or.imp (Ended.agree ha) (Unspawned.agree ha))
  cases c with
  | start => exact Fresh.agree ha h
  | sample phase =>
    cases phase with
    | idleBefore => exact Fresh.agree ha h
    | load => exact Loading.agree ha h
    | idleAfter => exact Ended.agree ha h
  | poll phase =>
    cases phase with
    | idleBefore => exact Fresh.agree ha h
    | load => exact Loading.agree ha h
    | idleAfter => exact Ended.agree ha h
  | check phase result =>
    cases phase with
    | idleBefore => exact Fresh.agree ha h
    | load => exact ⟨h.1.agree ha, h.2.agree ha⟩
    | idleAfter => exact Ended.agree ha h
  | spawn => exact Fresh.agree ha h
  | ended result => exact ⟨h.1.agree ha, h.2.1.agree ha, fun hp => ha.stopSignal (h.2.2 hp)⟩
  | terminate why => cases why <;> first | exact Spawned.agree ha h | exact ha.raised.trans h
  | wait why => cases why <;> first | exact Spawned.agree ha h | exact ha.raised.trans h
  | reap => exact ⟨h.1.agree ha, h.2.1.agree ha, fun hrc =>
      ha.stopSignal (h.2.2 (ha.childReturncode ▸ hrc))⟩
  | settle =>
    refine ⟨h.1.agree ha, h.2.1.agree ha, fun hrc => ?_⟩
    obtain ⟨rc, hchild⟩ := h.2.2 (ha.childReturncode ▸ hrc)
    exact ⟨rc, ha.child.trans hchild⟩
  | decide =>
    obtain ⟨hspawned, rc, hchild, hrc⟩ := h
    exact ⟨hspawned.agree ha, rc, ha.child.trans hchild, ha.childReturncode.trans hrc⟩
  | after => exact Ended.agree ha h
  | finally_ => exact hclosing h
  | stopping => exact ⟨ha.child ▸ h.1, hclosing h.2⟩
  | returned => exact ⟨ha.child ▸ h.1, h.2.imp (Ended.agree ha) (Unspawned.agree ha)⟩
  | raised => rw [At, ha.child]; exact h

end Agree

/-- The end of the child. -/
theorem At.childEnds {s : Wrap D} {c : Control} (h : At s c) (hrunning : s.child = .running)
    (status : ℤ) :
    At { s with child := .exited status } c := by
  have hspawned : Spawned s → Spawned { s with child := .exited status } := fun h =>
    ⟨by simp, h.spawnError, h.raised⟩
  have hloading : Loading s → Loading { s with child := .exited status } := fun h =>
    ⟨hspawned h.toSpawned, h.childReturncode, h.timedOut⟩
  have hfresh : ¬Fresh s := fun h => by simp [h.child] at hrunning
  have hended : ¬Ended s := fun h => by
    obtain ⟨rc, hchild, -⟩ := h.status
    simp [hchild] at hrunning
  have hunspawned : ¬Unspawned s := fun h => by simp [h.child] at hrunning
  have hsaw : ∀ {result}, Saw s result → Saw { s with child := .exited status } result := fun h =>
    ⟨fun rc hrc => by simp [h.exit rc hrc] at hrunning, h.deadline⟩
  have hknown : Known s → Known { s with child := .exited status } := fun h rc hrc => by
    simp [h rc hrc] at hrunning
  cases c with
  | start => exact absurd h hfresh
  | sample phase =>
    cases phase with
    | idleBefore => exact absurd h hfresh
    | load => exact hloading h
    | idleAfter => exact absurd h hended
  | poll phase =>
    cases phase with
    | idleBefore => exact absurd h hfresh
    | load => exact hloading h
    | idleAfter => exact absurd h hended
  | check phase result =>
    cases phase with
    | idleBefore => exact absurd h hfresh
    | load => exact ⟨hloading h.1, hsaw h.2⟩
    | idleAfter => exact absurd h hended
  | spawn => exact absurd h hfresh
  | ended result => exact ⟨hloading h.1, hsaw h.2.1, h.2.2⟩
  | terminate why => cases why <;> first | exact hspawned h | exact h
  | wait why => cases why <;> first | exact hspawned h | exact h
  | reap => exact ⟨hspawned h.1, hknown h.2.1, h.2.2⟩
  | settle => exact ⟨hspawned h.1, hknown h.2.1, fun _ => ⟨status, rfl⟩⟩
  | decide =>
    obtain ⟨-, rc, hchild, -⟩ := h
    simp [hchild] at hrunning
  | after => exact absurd h hended
  | finally_ => exact .inl (h.resolve_right (not_or.mpr ⟨hended, hunspawned⟩))
  | stopping => exact absurd hrunning h.1
  | returned => exact absurd hrunning h.1
  | raised => exact absurd hrunning h

/-- What holds at a point holds at the next one. -/
theorem At.step {c c' : Control} {s s' : Wrap D} (hstep : Step args new (c, s) (c', s'))
    (h : At s c) : At s' c' := by
  have hrunning : ∀ {rc}, s.child = .running → s.child = .exited rc → False :=
    fun h1 h2 => by simp [h1] at h2
  cases hstep with
  | start =>
    have ha : Agree s { s with stream := s.stream ++ [.start] } :=
      ⟨rfl, rfl, rfl, rfl, rfl, rfl, id⟩
    have hfresh : Fresh { s with stream := s.stream ++ [.start] } := Fresh.agree ha h
    rcases first_eq args with hfirst | hfirst <;> rw [hfirst] <;> exact hfresh
  | startFails => exact .inl rfl
  | signal signal _ _ =>
    have ha : Agree s { s with stopSignal := some signal } :=
      ⟨rfl, rfl, rfl, rfl, rfl, rfl, fun _ => Option.some_ne_none signal⟩
    exact h.agree ha
  | childEnds status hchild _ _ => exact h.childEnds hchild status
  | @sample phase _ tick _ =>
    have ha : Agree s (s.oneSample phase tick) := ⟨rfl, rfl, rfl, rfl, rfl, rfl, id⟩
    cases phase with
    | idleBefore => exact Fresh.agree ha h
    | load => exact Loading.agree ha h
    | idleAfter => exact Ended.agree ha h
  | sampleFails tick k _ _ => exact .inl rfl
  | @pollIdle phase _ result hphase _ =>
    cases phase with
    | idleBefore => exact h
    | load => exact absurd rfl hphase
    | idleAfter => exact h
  | pollExit rc hchild =>
    have ha : Agree s { s with returncode := some rc } := ⟨rfl, rfl, rfl, rfl, rfl, rfl, id⟩
    exact ⟨Loading.agree ha h, fun rc' hrc => by cases hrc; exact hchild, by simp⟩
  | pollTimeout _ _ => exact ⟨h, ⟨by simp, by simp⟩⟩
  | pollNone _ => exact ⟨h, ⟨by simp, by simp⟩⟩
  | @leave phase _ _ hleave =>
    cases phase with
    | idleBefore => exact h
    | load => exact ⟨h.1, h.2, fun hnone => hleave.resolve_left (not_not.mpr hnone)⟩
    | idleAfter => exact .inr (.inl h)
  | @again phase _ late _ =>
    have ha : Agree s { s with lateTicks := s.lateTicks + late.toNat } :=
      ⟨rfl, rfl, rfl, rfl, rfl, rfl, id⟩
    cases phase with
    | idleBefore => exact Fresh.agree ha h
    | load => exact Loading.agree ha h.1
    | idleAfter => exact Ended.agree ha h
  | spawnStopped signal hsignal =>
    have h : Fresh s := h
    exact .inr (.inr ⟨h.child, h.childReturncode, h.timedOut, h.raised,
      .inr ⟨h.spawnError, by simp [hsignal], signal, rfl⟩⟩)
  | spawn _ =>
    have h : Fresh s := h
    exact ⟨⟨by simp, h.spawnError, h.raised⟩, h.childReturncode, h.timedOut⟩
  | spawnError error _ =>
    have h : Fresh s := h
    exact .inr (.inr ⟨h.child, h.childReturncode, h.timedOut, h.raised, .inl ⟨by simp, rfl⟩⟩)
  | spawnErrorFails error _ => exact .inl rfl
  | endedExit rc =>
    obtain ⟨hloading, hsaw, -⟩ := h
    exact ⟨⟨hloading.child, hloading.spawnError, hloading.raised⟩,
      fun rc' hrc => by cases hrc; exact hsaw.exit rc rfl, fun hnone => by cases hnone⟩
  | endedTimeout => exact ⟨h.1.child, h.1.spawnError, h.1.raised⟩
  | endedNone =>
    exact ⟨h.1.toSpawned, fun rc hrc => by simp [h.1.childReturncode] at hrc, fun _ => h.2.2 rfl⟩
  | @terminate why _ rc _ =>
    have ha : Agree s { s with returncode := some rc } := ⟨rfl, rfl, rfl, rfl, rfl, rfl, id⟩
    cases why with
    | timeout => exact Spawned.agree ha h
    | interrupted => exact Spawned.agree ha h
    | final => exact h
  | @kill why _ _ =>
    cases why <;> exact h
  | waitTimeout rc hchild =>
    have h : Spawned s := h
    exact ⟨⟨h.child, h.spawnError, h.raised⟩,
      fun rc' hrc => by cases hrc; exact hchild, fun hnone => by cases hnone⟩
  | waitInterrupted rc hchild =>
    have h : Spawned s := h
    exact ⟨⟨h.child, h.spawnError, h.raised⟩,
      fun rc' hrc => by cases hrc; exact hchild, fun hnone => by cases hnone⟩
  | waitFinal rc hchild =>
    refine ⟨?_, .inl h⟩
    change s.child ≠ .running
    simp [hchild]
  | reapRunning _ _ => exact h.1
  | reapEnded rc _ hchild =>
    exact ⟨⟨h.1.child, h.1.spawnError, h.1.raised⟩, h.2.1, fun _ => ⟨rc, hchild⟩⟩
  | reapUnstopped hstop => exact ⟨h.1, h.2.1, fun hnone => absurd hstop (h.2.2 hnone)⟩
  | settle hrc =>
    obtain ⟨rc, hrc⟩ := Option.ne_none_iff_exists'.mp hrc
    exact ⟨⟨h.1.child, h.1.spawnError, h.1.raised⟩, rc, h.2.1 rc hrc, hrc⟩
  | settleEnded rc _ hchild => exact ⟨⟨h.1.child, h.1.spawnError, h.1.raised⟩, rc, hchild, rfl⟩
  | settleRunning hnone hchild =>
    obtain ⟨rc, hexited⟩ := h.2.2 hnone
    exact (hrunning hchild hexited).elim
  | settleFails => exact .inl rfl
  | decide =>
    obtain ⟨hspawned, rc, hchild, hrc⟩ := h
    refine ⟨⟨hspawned.child, hspawned.spawnError, hspawned.raised⟩, rc, hchild, hrc,
      s.stopSignal, ?_, id⟩
    rw [hrc]
    cases s.stopSignal <;> rfl
  | idleAfter _ _ => exact h
  | noIdleAfter _ => exact .inr (.inl h)
  | finallyRunning hchild =>
    rcases h with h | h | h
    · exact h
    · obtain ⟨rc, hexited, -⟩ := h.status
      exact (hrunning hchild hexited).elim
    · simp [h.child] at hchild
  | finallyEnded rc hchild =>
    have ha : Agree s { s with returncode := some rc } := ⟨rfl, rfl, rfl, rfl, rfl, rfl, id⟩
    refine ⟨?_, At.agree ha h⟩
    change s.child ≠ .running
    simp [hchild]
  | finallyNone hchild => exact ⟨by simp [hchild], h⟩
  | stop =>
    have ha : Agree s { s with stream := s.stream ++ [.stop s.exitCode] } :=
      ⟨rfl, rfl, rfl, rfl, rfl, rfl, id⟩
    by_cases hraised : s.raised = true
    · rw [if_pos hraised]
      exact h.1
    · rw [if_neg hraised]
      exact ⟨h.1, (h.2.resolve_left hraised).imp (Ended.agree ha) (Unspawned.agree ha)⟩
  | closeFails => exact h.1
  | stopFails => exact h.1

/-! ### The phases -/

/-- The phase of a point. -/
def Control.rank : Control → ℕ
  | .start => 0
  | .sample phase => phase.rank
  | .poll phase => phase.rank
  | .check phase _ => phase.rank
  | .spawn => 0
  | .after => 1
  | .ended _ => 1
  | .terminate .timeout => 1
  | .wait .timeout => 1
  | .terminate .interrupted => 1
  | .wait .interrupted => 1
  | .reap => 1
  | .settle => 1
  | .decide => 1
  | _ => 2

theorem rank_le_two (c : Control) : c.rank ≤ 2 := by
  cases c with
  | sample phase => cases phase <;> decide
  | poll phase => cases phase <;> decide
  | check phase result => cases phase <;> simp [Control.rank, PhaseName.rank]
  | terminate why => cases why <;> decide
  | wait why => cases why <;> decide
  | ended result => simp [Control.rank]
  | _ => decide

/-- No step goes back to an earlier phase. -/
theorem rank_le {c c' : Control} {s s' : Wrap D} (hstep : Step args new (c, s) (c', s')) :
    c.rank ≤ c'.rank := by
  cases hstep with
  | start => exact Nat.zero_le _
  | @leave phase result _ _ => cases phase <;> simp [leaves, Control.rank, PhaseName.rank]
  | sampleFails => exact rank_le_two _
  | @terminate why _ _ _ => cases why <;> exact le_rfl
  | @kill why _ _ => cases why <;> exact le_rfl
  | pollExit => exact le_rfl
  | endedExit => exact le_rfl
  | stop => split_ifs <;> decide
  | signal => exact le_rfl
  | childEnds => exact le_rfl
  | sample => exact le_rfl
  | pollIdle => exact le_rfl
  | again => exact le_rfl
  | _ => decide

/-- The records in memory are in the order of the phases, and every spawned command was sampled. -/
structure Phased (c : Control) (s : Wrap D) : Prop where
  sorted : (s.records.map fun r => r.phase.rank).Pairwise (· ≤ ·)
  le_rank : ∀ r ∈ s.records, r.phase.rank ≤ c.rank
  /-- The load is sampled only where there is a command, and then it is. -/
  load : (∃ r ∈ s.records, r.phase = .load) → s.child ≠ .none
  loaded : s.child ≠ .none → c = .sample .load ∨ ∃ r ∈ s.records, r.phase = .load

theorem phase_tick {tick : Tick D} {phase : PhaseName} {offset : ℕ} :
    ∀ r ∈ tick.records phase offset, r.phase = phase := by
  intro r hr
  rcases List.mem_cons.mp hr with rfl | hr
  · rfl
  · obtain ⟨_, -, rfl⟩ := List.mem_map.mp hr
    rfl

/-- The records of a sample, cut or not, come after those in memory. -/
theorem Phased.sample {phase : PhaseName} {s s' : Wrap D} (h : Phased (.sample phase) s)
    (hat : At s (.sample phase))
    {c' : Control} (hrank : phase.rank ≤ c'.rank) {new : List (Rec D)}
    (hnew : ∀ r ∈ new, r.phase = phase)
    (hne : new ≠ []) (hrecords : s'.records = s.records ++ new) (hchild : s'.child = s.child) :
    Phased c' s' where
  sorted := by
    have hall : ∀ a ∈ new.map fun r => r.phase.rank, a = phase.rank := fun a ha => by
      obtain ⟨r, hr, rfl⟩ := List.mem_map.mp ha
      rw [hnew r hr]
    rw [hrecords, List.map_append, List.pairwise_append]
    refine ⟨h.sorted, List.pairwise_of_forall_mem_list fun a ha b hb => ?_, fun a ha b hb => ?_⟩
    · rw [hall a ha, hall b hb]
    · obtain ⟨r, hr, rfl⟩ := List.mem_map.mp ha
      rw [hall b hb]
      exact h.le_rank r hr
  le_rank := by
    rw [hrecords]
    intro r hr
    rcases List.mem_append.mp hr with hr | hr
    · exact (h.le_rank r hr).trans hrank
    · rw [hnew r hr]
      exact hrank
  load := by
    rw [hrecords, hchild]
    rintro ⟨r, hr, hload⟩
    rcases List.mem_append.mp hr with hr | hr
    · exact h.load ⟨r, hr, hload⟩
    · obtain rfl : phase = .load := (hnew r hr).symm.trans hload
      exact (Loading.toSpawned hat).child
  loaded := by
    rw [hrecords, hchild]
    intro hspawned
    rcases h.loaded hspawned with heq | ⟨r, hr, hload⟩
    · cases heq
      obtain ⟨r, hr⟩ := List.exists_mem_of_ne_nil new hne
      exact .inr ⟨r, List.mem_append_right _ hr, hnew r hr⟩
    · exact .inr ⟨r, List.mem_append_left _ hr, hload⟩

/-- A step that samples nothing. -/
theorem Phased.keeps {c c' : Control} {s s' : Wrap D} (h : Phased c s)
    (hstep : Step args new (c, s) (c', s'))
    (hrecords : s'.records = s.records) (hstay : ∀ phase, c = .sample phase → c' = .sample phase) :
    Phased c' s' where
  sorted := by
    rw [hrecords]
    exact h.sorted
  le_rank := by
    rw [hrecords]
    exact fun r hr => (h.le_rank r hr).trans (rank_le hstep)
  load := by
    rw [hrecords]
    intro hload
    rcases step_child hstep with ⟨-, hrunning⟩ | hsame
    · simp [hrunning]
    · exact mt hsame.mp (h.load hload)
  loaded := by
    rw [hrecords]
    intro hspawned
    rcases step_child hstep with ⟨hsample, -⟩ | hsame
    · exact .inl hsample
    · exact (h.loaded (mt hsame.mpr hspawned)).imp_left (hstay .load)

theorem Phased.step {c c' : Control} {s s' : Wrap D} (h : Phased c s)
    (hstep : Step args new (c, s) (c', s'))
    (hat : At s c) : Phased c' s' := by
  rcases step_writes hstep with ⟨phase, tick, -, rfl, -, hchild, ⟨rfl, rfl⟩ | ⟨k, rfl, rfl⟩⟩ |
    ⟨-, ⟨rfl, hkeeps, -⟩ | ⟨line, -, -, hkeeps, -, -, hsample⟩ | ⟨rfl, hkeeps, -⟩ |
      ⟨hkeeps, -, hstay, -⟩⟩
  · exact h.sample hat le_rfl phase_tick (by simp [Tick.records]) rfl hchild
  · exact h.sample hat (rank_le_two (.sample phase))
      (fun r hr => phase_tick r (List.mem_of_mem_take hr))
      (by simp [Tick.records]) rfl hchild
  · exact h.keeps hstep hkeeps.records fun phase hc => by cases hc
  · exact h.keeps hstep hkeeps.records fun phase hc => absurd hc (hsample phase)
  · exact h.keeps hstep hkeeps.records fun phase hc => by cases hc
  · exact h.keeps hstep hkeeps.records hstay

/-! ### The runs -/

/-- The invariant of a run. -/
structure Inv (args : WrapArgs) (ticks : Ticks D) (p : Control × Wrap D) : Prop where
  at_ : At p.2 p.1
  logged : Logged args ticks p.1 p.2
  phased : Phased p.1 p.2

theorem inv_init : Inv args [] (.start, (Wrap.init : Wrap D)) where
  at_ := ⟨rfl, rfl, rfl, rfl, rfl⟩
  logged :=
    ⟨⟨List.nil_prefix, fun _ => rfl⟩, ⟨List.nil_prefix, fun _ => rfl⟩, fun _ => rfl,
      fun _ hc => absurd rfl hc, by simp, Nat.zero_le _, fun _ => rfl⟩
  phased := ⟨List.Pairwise.nil, by simp [Wrap.init], by simp [Wrap.init], fun h => absurd rfl h⟩

theorem raised_of_sample {s : Wrap D} {phase : PhaseName} (h : At s (.sample phase)) :
    s.raised = false := by
  cases phase with
  | idleBefore => exact Fresh.raised h
  | load => exact (Loading.toSpawned h).raised
  | idleAfter => exact (Ended.toSpawned h).raised

/-- What every step keeps. -/
theorem step_inv {p p' : Control × Wrap D} (hstep : Step args new p p') (h : Inv args ticks p) :
    Inv args (ticks ++ new) p' := by
  obtain ⟨c, s⟩ := p
  obtain ⟨c', s'⟩ := p'
  have hend : c ≠ .returned ∧ c ≠ .raised := by
    constructor
    · rintro rfl
      cases hstep <;> simp_all
    · rintro rfl
      cases hstep <;> simp_all
  refine ⟨h.at_.step hstep, step_logged hstep h.logged (fun phase hc => ?_) hend,
    h.phased.step hstep h.at_⟩
  cases hc
  exact raised_of_sample h.at_

theorem reached_inv {p : Control × Wrap D} (h : Reached args ticks p) : Inv args ticks p := by
  induction h with
  | start => exact inv_init
  | step _ hstep ih => exact step_inv hstep ih

/-- What holds where `run_wrap` returns. -/
structure Returned (args : WrapArgs) (ticks : Ticks D) (s : Wrap D) : Prop where
  /-- In memory are the records of the ticks, the markers those of one tailing of the file over
  all phases. -/
  sampled : s.records = sampled .init ticks
  tailed : s.records.filterMap Rec.label = (Sampler.init.polls ticks).sink
  /-- One `start`, one `stop` with the exit code, and events and records between them. -/
  stream : ∃ lines, s.stream = .start :: lines ++ [.stop s.exitCode] ∧ ∀ line ∈ lines, line.IsInner
  /-- The records of the stream are those in memory: the chart can be made again from it. -/
  logged : recordsOf s.stream = s.records
  phases : (s.records.map fun r => r.phase.rank).Pairwise (· ≤ ·)
  /-- The load was sampled exactly if there was a command. -/
  load : (∃ r ∈ s.records, r.phase = .load) ↔ s.child ≠ .none
  drops : s.drops ≤ args.collectors * s.records.countP Rec.isSample
  /-- The child is reaped, and its status is what is reported. -/
  reaped : s.child = .none ∨ ∃ status, s.child = .exited status ∧ s.childReturncode = some status
  timedOut : s.timedOut = true → s.exitCode = 124
  spawnError : s.spawnError ≠ none → s.exitCode = 2
  /-- Without a signal and in time, the exit code is the status of the command. -/
  status : ∀ status, s.child = .exited status → s.stopSignal = none → s.timedOut = false →
    s.exitCode = if 0 ≤ status then status else 128 + status.natAbs
  success : s.exitCode = 0 → s.child = .exited 0 ∧ s.timedOut = false

theorem exitOf_eq_zero {timedOut : Bool} {signal : Option Signal} {rc : ℤ}
    (h : exitOf timedOut signal (some rc) 0 = 0) :
    timedOut = false ∧ rc = 0 := by
  cases timedOut with
  | true => cases h
  | false =>
    cases signal with
    | some signal => cases signal <;> cases h
    | none =>
      change (if 0 ≤ rc then rc else 128 + (rc.natAbs : ℤ)) = 0 at h
      refine ⟨rfl, ?_⟩
      split_ifs at h <;> omega

theorem returned_of_inv {s : Wrap D} (h : Inv args ticks (.returned, s)) :
    Returned args ticks s := by
  have hend : Ended s ∨ Unspawned s := h.at_.2
  have hlogged : Logged args ticks .returned s := h.logged
  have hphased : Phased .returned s := h.phased
  obtain ⟨hraised, hstream⟩ := hlogged.stopped rfl
  refine { sampled := hlogged.sampled.2 hraised
           tailed := by rw [hlogged.polled hraised]
           stream := hstream
           logged := hlogged.records.2 hraised
           phases := hphased.sorted
           load := ⟨hphased.load, fun hspawned => (hphased.loaded hspawned).resolve_left (by simp)⟩
           drops := hlogged.drops
           reaped := ?_, timedOut := ?_, spawnError := ?_, status := ?_, success := ?_ }
  all_goals rcases hend with hended | hun
  · obtain ⟨rc, hrc, hreturncode, -⟩ := hended.status
    exact .inr ⟨rc, hrc, hreturncode⟩
  · exact .inl hun.child
  · obtain ⟨rc, -, -, signal, hexit, -⟩ := hended.status
    intro ht
    rw [hexit, ht]
    rfl
  · simp [hun.timedOut]
  · simp [hended.spawnError]
  · exact fun herror => (hun.exitCode.resolve_right fun h => herror h.1).2
  · obtain ⟨rc, hrc, -, signal, hexit, hsignal⟩ := hended.status
    intro status hstatus hstop ht
    obtain rfl : rc = status := by
      rw [hrc] at hstatus
      exact Child.exited.inj hstatus
    obtain rfl : signal = none := by
      by_contra hs
      exact hsignal hs hstop
    rw [hexit, ht]
    rfl
  · intro status hstatus
    simp [hun.child] at hstatus
  · obtain ⟨rc, hrc, -, signal, hexit, -⟩ := hended.status
    intro hzero
    obtain ⟨ht, rfl⟩ := exitOf_eq_zero (hexit.symm.trans hzero)
    exact ⟨hrc, ht⟩
  · intro hzero
    rcases hun.exitCode with ⟨-, htwo⟩ | ⟨-, -, signal, hexit⟩
    · omega
    · cases signal <;> simp [Signal.number, hexit] at hzero

/-- **Sampling around a command**: whatever the clock, the collectors, the marker file and the child
do, and whenever signals come and writes fail, where `run_wrap` returns, the stream and the memory
have the records of the ticks, the child is reaped, and an exit code of zero means that the command
has succeeded. Where it raises, the child is not running either, the stream has the first of the
records in memory, and the memory the first of those of the ticks. -/
theorem wrap_ends {c : Control} {s : Wrap D} (h : Reached args ticks (c, s)) :
    (c = .returned → Returned args ticks s) ∧
      (c = .raised → s.child ≠ .running ∧ recordsOf s.stream <+: s.records ∧
        s.records <+: sampled .init ticks) := by
  have hinv := reached_inv h
  constructor
  · rintro rfl
    exact returned_of_inv hinv
  · rintro rfl
    exact ⟨hinv.at_, hinv.logged.records.1, hinv.logged.sampled.1⟩

end Run

/-- An idle window and one collector. -/
def oneCollector : WrapArgs := ⟨1, 0, 1⟩

/-- A tick that finds these markers in the file. -/
def oneTick (file : Bytes) : Tick ℕ := ⟨[some [5]], 0, some file, fun _ => 0⟩

/-- A marker is written before the command, and one while it runs. -/
def threeTicks : Ticks ℕ :=
  [(.idleBefore, oneTick [97, 10]), (.load, oneTick [97, 10, 98]),
    (.idleAfter, oneTick [97, 10, 98, 10])]

/-- A command that succeeds, with one sample in each phase, and each marker once. -/
theorem wrap_ends_success : ∃ s : Wrap ℕ, Reached oneCollector threeTicks (.returned, s) ∧
    s.exitCode = 0 ∧ s.child = .exited 0 ∧
    s.records.map Rec.phase = [.idleBefore, .idleBefore, .load, .idleAfter, .idleAfter] ∧
    s.records.filterMap Rec.label = [['a'], ['b']] := by
  have hidle : ∀ {ticks : Ticks ℕ} {phase : PhaseName} {s : Wrap ℕ}, phase ≠ .load →
      Reached oneCollector ticks (.poll phase, s) →
        Reached oneCollector (ticks ++ [] ++ []) (leaves (some .deadline) phase, s) :=
            fun hphase h =>
    (h.step (.pollIdle (some .deadline) hphase (by simp))).step (.leave (.inl (by simp)))
  have hfirst : oneCollector.first = .sample .idleBefore := by
    rw [WrapArgs.first, if_pos]
    decide
  have hstart : Reached oneCollector []
      (.sample .idleBefore, ({ Wrap.init with stream := [.start] } : Wrap ℕ)) :=
    hfirst ▸ Reached.start.step .start
  have hspawn := (hidle (by decide) (hstart.step (.sample (oneTick [97, 10]) rfl))).step
    (.spawn rfl)
  have hload := ((hspawn.step (.sample (oneTick [97, 10, 98]) rfl)).step
    (.childEnds 0 rfl (by decide) (by decide))).step (.pollExit 0 rfl)
  have hended := ((hload.step (.leave (.inl (by decide)))).step (.endedExit 0)).step
    (.reapUnstopped rfl)
  have hafter := ((hended.step (.settle (by simp))).step .decide).step (.idleAfter (by decide) rfl)
  have hlast := hafter.step (.sample (oneTick [97, 10, 98, 10]) rfl)
  have hfinal := ((hidle (by decide) hlast).step (.finallyEnded 0 rfl)).step .stop
  have hreturned := (wrap_ends hfinal).1 rfl
  refine ⟨_, hfinal, rfl, (hreturned.success rfl).1, ?_, ?_⟩
  · rw [hreturned.sampled]
    decide +kernel
  · rw [hreturned.tailed]
    decide +kernel

end Glm53Serve.BenchPower
