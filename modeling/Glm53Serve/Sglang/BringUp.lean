import Mathlib.Data.List.Sublists
import Mathlib.Logic.Function.Basic
import Mathlib.Logic.Relation

/-!
# Bringing the two ranks up

`start-glm53.sh` brings the worker's container up and then the head's, each with a startup guard
(`oom-guard-node.sh`) that stops the container where memory runs out, waits for the API, disarms
both guards and serves. A start that fails after its first `up` stops both containers and both
guards.

## The model

A step of a run is one of a node (its container ends or comes back, a process starts or ends, a
guard looks, trips, or its `docker stop` is answered) or one command of the script, in any order. A
command may fail at any point; a query that fails may miss what runs. Only this start is at work on
the two nodes, and a remote command whose connection breaks has ended.

The guards are found by their pid file. Between a look at a process and the signal the process may
end and its pid be taken by another. `start-guard-node.sh` takes the directory of the file from the
environment behind `.env.glm53`, `stop-guard-node.sh` from the environment it is called with: on the
worker that is the login shell's. `[ -f ]` and `sed` may fail on a file that is there (`|| true`),
and `kill -0` fails on a guard of another user; a stop then succeeds without one.

## What is proved

* `stopStep_stopping` — `glm53_stop_guard_pid_file` returns 0 only where no guard is left.
* `served_unguarded` — a start that serves has left no guard, and none can come back.
* `served_guarded` — where the worker's two directories differ, it may serve with a guard.
* `unserved_cleaned` — a start that is refused has touched nothing, and one that fails has stopped
  what its clean-up commands say they have.
-/

namespace Glm53Serve.Sglang.BringUp

/-! ### A node -/

/-- Where `oom-guard-node.sh` is. -/
inductive GuardPoint where
  /-- Its command line is still that of `start-guard-node.sh`. -/
  | forked
  | probe
  /-- `docker ps` has named a container. -/
  | saw (id : ℕ)
  /-- Waiting for `docker stop`. -/
  | tripped

/-- A process, as far as the scripts tell them apart. -/
inductive Proc where
  /-- `own`: of the user that runs the scripts. -/
  | guard (own : Bool) (point : GuardPoint)
  | other

/-- The container of the service. -/
inductive Container where
  /-- There is none, or it was stopped. -/
  | stopped
  | running (id : ℕ)
  /-- It has ended by itself; `RESTART_POLICY` may bring it back. -/
  | exited (id : ℕ)

/-- The container that is not stopped. -/
def Container.id? : Container → Option ℕ
  | .stopped => none
  | .running id => some id
  | .exited id => some id

/-- `docker stop` of one container. -/
def Container.stop (c : Container) (id : ℕ) : Container := if c.id? = some id then .stopped else c

/-- The first line of the pid file. -/
inductive PidFile where
  | missing
  /-- Empty, or not all digits. -/
  | invalid
  | pid (p : ℕ)

structure Node where
  container : Container
  procs : ℕ → Option Proc
  /-- The pid file in each directory. -/
  files : String → PidFile
  /-- The `docker stop` requests of guards that are not yet answered. -/
  stops : List ℕ

namespace Node

def setProc (n : Node) (p : ℕ) (x : Option Proc) : Node :=
  { n with procs := Function.update n.procs p x }

def setFile (n : Node) (dir : String) (file : PidFile) : Node :=
  { n with files := Function.update n.files dir file }

@[simp] theorem setFile_self (n : Node) (dir : String) (file : PidFile) :
    (n.setFile dir file).files dir = file := Function.update_self ..

/-- There is a guard with this pid. -/
def Guard (n : Node) (p : ℕ) : Prop := ∃ own point, n.procs p = some (.guard own point)

/-- And it can be signalled. -/
def OwnGuard (n : Node) (p : ℕ) : Prop := ∃ point, n.procs p = some (.guard true point)

theorem not_guard {n : Node} {p : ℕ} (h : n.procs p = none) : ¬n.Guard p := by
  rintro ⟨own, point, hp⟩
  simp [h] at hp

theorem not_ownGuard {n : Node} {p : ℕ} (h : n.procs p = none) : ¬n.OwnGuard p := by
  rintro ⟨point, hp⟩
  simp [h] at hp

end Node

/-- What happens on a node without the script. -/
inductive NodeStep : Node → Node → Prop where
  | crash {n : Node} {id : ℕ} (h : n.container = .running id) :
      NodeStep n { n with container := .exited id }
  | restart {n : Node} {id : ℕ} (h : n.container = .exited id) :
      NodeStep n { n with container := .running id }
  /-- Someone stops it by hand. -/
  | halt {n : Node} : NodeStep n { n with container := .stopped }
  | spawn {n : Node} {p : ℕ} (h : n.procs p = none) : NodeStep n (n.setProc p (some .other))
  /-- A process ends; a guard where the API is healthy, its stop was answered, its time is over, or
  it was killed. -/
  | exit {n : Node} (p : ℕ) : NodeStep n (n.setProc p none)
  | guardExec {n : Node} {p : ℕ} {own : Bool} (h : n.procs p = some (.guard own .forked)) :
      NodeStep n (n.setProc p (some (.guard own .probe)))
  | guardSees {n : Node} {p id : ℕ} {own : Bool} (h : n.procs p = some (.guard own .probe))
      (hrunning : n.container = .running id) :
      NodeStep n (n.setProc p (some (.guard own (.saw id))))
  /-- Enough memory is available. -/
  | guardSleeps {n : Node} {p id : ℕ} {own : Bool} (h : n.procs p = some (.guard own (.saw id))) :
      NodeStep n (n.setProc p (some (.guard own .probe)))
  | guardTrips {n : Node} {p id : ℕ} {own : Bool} (h : n.procs p = some (.guard own (.saw id))) :
      NodeStep n { n.setProc p (some (.guard own .tripped)) with stops := id :: n.stops }
  /-- The request is carried out, also where the guard is gone. -/
  | stopLands {n : Node} {id : ℕ} (h : id ∈ n.stops) :
      NodeStep n { n with container := n.container.stop id, stops := n.stops.erase id }
  | stopFails {n : Node} {id : ℕ} (h : id ∈ n.stops) :
      NodeStep n { n with stops := n.stops.erase id }

/-! ### The scripts of a node -/

/-- The points of `glm53_stop_guard_pid_file`. -/
inductive StopPoint where
  /-- `[ -f ]` and `sed`. -/
  | read
  | alive (p : ℕ)
  | identify (p : ℕ)
  | term (p : ℕ)
  | poll (p attempts : ℕ)
  | again (p : ℕ)
  | reidentify (p : ℕ)
  | kill (p : ℕ)
  | last (p : ℕ)
  | remove
  | returned (ok : Bool)

/-- `*oom-guard-node.sh*`. -/
def Node.Matches (n : Node) (p : ℕ) : Prop :=
  ∃ own point, n.procs p = some (.guard own point) ∧ point ≠ .forked

/-- A command of `glm53_stop_guard_pid_file` on the pid file in `dir`. `kill -0` fails where there
is no process, or another user's. -/
inductive StopStep (dir : String) (readable : Bool) : Node × StopPoint →
    Node × StopPoint → Prop where
  | missing {n : Node} (h : n.files dir = .missing) :
      StopStep dir readable (n, .read) (n, .returned true)
  /-- `[ -f ]` fails on a file that is there. -/
  | unseen {n : Node} (h : readable = false) : StopStep dir readable (n, .read) (n, .returned true)
  | invalid {n : Node} (h : n.files dir = .invalid) :
      StopStep dir readable (n, .read) (n.setFile dir .missing, .returned true)
  /-- `sed` fails, so the pid is empty. -/
  | unread {n : Node} (h : readable = false) :
      StopStep dir readable (n, .read) (n.setFile dir .missing, .returned true)
  | pid {n : Node} {p : ℕ} (h : n.files dir = .pid p) :
      StopStep dir readable (n, .read) (n, .alive p)
  | alive {n : Node} {p : ℕ} (h : n.procs p ≠ none) :
      StopStep dir readable (n, .alive p) (n, .identify p)
  | dead {n : Node} {p : ℕ} (h : ¬n.OwnGuard p) : StopStep dir readable (n, .alive p) (n, .remove)
  | isGuard {n : Node} {p : ℕ} (h : n.Matches p) :
      StopStep dir readable (n, .identify p) (n, .term p)
  /-- Refusing to kill a stale pid, or one whose command line cannot be read. -/
  | stale {n : Node} {p : ℕ} : StopStep dir readable (n, .identify p) (n, .returned false)
  | term {n : Node} {p : ℕ} : StopStep dir readable (n, .term p) (n, .poll p 0)
  | termKills {n : Node} {p : ℕ} :
      StopStep dir readable (n, .term p) (n.setProc p none, .poll p 0)
  | sleep {n : Node} {p attempts : ℕ} (h : n.procs p ≠ none) (hless : attempts < 50) :
      StopStep dir readable (n, .poll p attempts) (n, .poll p (attempts + 1))
  | polled {n : Node} {p attempts : ℕ} (h : ¬n.OwnGuard p ∨ 50 ≤ attempts) :
      StopStep dir readable (n, .poll p attempts) (n, .again p)
  | stillAlive {n : Node} {p : ℕ} (h : n.procs p ≠ none) :
      StopStep dir readable (n, .again p) (n, .reidentify p)
  | gone {n : Node} {p : ℕ} (h : ¬n.OwnGuard p) : StopStep dir readable (n, .again p) (n, .remove)
  | stillGuard {n : Node} {p : ℕ} (h : n.Matches p) :
      StopStep dir readable (n, .reidentify p) (n, .kill p)
  /-- The pid has changed its identity. -/
  | changed {n : Node} {p : ℕ} : StopStep dir readable (n, .reidentify p) (n, .returned false)
  | kill {n : Node} {p : ℕ} : StopStep dir readable (n, .kill p) (n, .last p)
  | killKills {n : Node} {p : ℕ} : StopStep dir readable (n, .kill p) (n.setProc p none, .last p)
  | survived {n : Node} {p : ℕ} (h : n.procs p ≠ none) :
      StopStep dir readable (n, .last p) (n, .returned false)
  | killed {n : Node} {p : ℕ} (h : ¬n.OwnGuard p) : StopStep dir readable (n, .last p) (n, .remove)
  | remove {n : Node} :
      StopStep dir readable (n, .remove) (n.setFile dir .missing, .returned true)
  /-- `rm` fails. -/
  | kept {n : Node} : StopStep dir readable (n, .remove) (n, .returned false)
  | invalidKept {n : Node} (h : n.files dir = .invalid) :
      StopStep dir readable (n, .read) (n, .returned false)

/-- The points of `start-guard-node.sh`. -/
inductive StartPoint where
  | config
  | stop (point : StopPoint)
  | spawn
  /-- The guard with this pid is forked. -/
  | write (p : ℕ)

/-! ### The start -/

inductive Role where
  | head
  | worker
  deriving DecidableEq

/-- The settings that the guards depend on. -/
structure Config where
  /-- `OOM_GUARD` -/
  oomGuard : Role → Bool
  /-- `GLM53_GUARD_STATE_DIR` in the shell: of `start-glm53.sh`, and of the worker's login. -/
  env : Role → Option String
  /-- `GLM53_GUARD_STATE_DIR` in `.env.glm53` or the profile. -/
  file : Option String
  root : Role → String
  /-- `[ -f ]` and `sed` do not fail on a pid file. -/
  readable : Role → Bool

/-- `${GLM53_GUARD_STATE_DIR:-$GLM53_ROOT}` -/
def stateDir (value : Option String) (root : String) : String :=
  match value with
  | none => root
  | some dir => if dir = "" then root else dir

/-- The directory of `start-guard-node.sh`, which loads the configuration. -/
def Config.startDir (cfg : Config) (r : Role) : String :=
  stateDir (cfg.file.or (cfg.env r)) (cfg.root r)

/-- The directory of `stop-guard-node.sh`, which does not; on the head it is called with what
`start-glm53.sh` has loaded and exported. -/
def Config.stopDir (cfg : Config) : Role → String
  | .head => cfg.startDir .head
  | .worker => stateDir (cfg.env .worker) (cfg.root .worker)

/-- A pid file that has been written is found again. -/
structure Config.FindsFiles (cfg : Config) : Prop where
  dir : cfg.startDir .worker = cfg.stopDir .worker
  readable : ∀ r, cfg.readable r = true

theorem Config.FindsFiles.dir_eq {cfg : Config} (h : cfg.FindsFiles) (r : Role) :
    cfg.startDir r = cfg.stopDir r := by
  cases r with
  | head => rfl
  | worker => exact h.dir

/-- A command of `cleanup_failed_start` that changes a node. -/
inductive Command where
  | container (r : Role)
  | guard (r : Role)
  deriving DecidableEq

inductive CleanupPoint where
  | container (r : Role)
  | guard (r : Role) (point : StopPoint)

/-- The round of the wait loop. -/
inductive WaitPoint where
  | clock
  | head
  | worker
  | api

/-- The points of `start-glm53.sh`. -/
inductive Point where
  /-- Up to `STARTED=1`. -/
  | before
  | refused
  | up (r : Role)
  | startGuard (r : Role) (point : StartPoint)
  | checkWorker
  | wait (point : WaitPoint)
  | disarm (r : Role) (point : StopPoint)
  | smoke
  | served
  /-- The node whose guard was not recorded, and the commands that have succeeded. -/
  | cleanup (lost : Option Role) (done : List Command) (point : CleanupPoint)
  | failed (lost : Option Role) (done : List Command)

namespace Point

/-- Behind `start-guard-node.sh`. -/
def afterGuard : Role → Point
  | .worker => .checkWorker
  | .head => .wait .clock

/-- Behind a disarmed guard. -/
def afterDisarm : Role → Point
  | .head => .disarm .worker .read
  | .worker => .smoke

/-- Behind a `compose stop` of the clean-up. -/
def afterStop (lost : Option Role) (done : List Command) : Role → Point
  | .head => .cleanup lost done (.container .worker)
  | .worker => .cleanup lost done (.guard .head .read)

/-- Behind a `stop-guard-node.sh` of the clean-up. -/
def afterStopGuard (lost : Option Role) (done : List Command) : Role → Point
  | .head => .cleanup lost done (.guard .worker .read)
  | .worker => .failed lost done

/-- `STARTED=1` and not ready: a command that fails here runs the clean-up. -/
def Started : Point → Prop
  | .up _ | .startGuard _ _ | .checkWorker | .wait _ | .disarm _ _ | .smoke => True
  | _ => False

/-- The node with a guard that is in no pid file. -/
def lost : Point → Option Role
  | .startGuard r (.write _) => some r
  | _ => none

end Point

/-- The nodes and the ids of containers. -/
structure Sys where
  node : Role → Node
  /-- The id of the next container. -/
  fresh : ℕ
  /-- The container that this start has created. -/
  made : Role → Option ℕ

namespace Sys

def setNode (s : Sys) (r : Role) (n : Node) : Sys := { s with node := Function.update s.node r n }

/-- A container that is created new. -/
def create (s : Sys) (r : Role) (c : Container) : Sys :=
  { s.setNode r { s.node r with container := c } with
    fresh := s.fresh + 1
    made := Function.update s.made r (some s.fresh) }

variable (s : Sys) (r : Role) (n : Node)

@[simp] theorem setNode_self : (s.setNode r n).node r = n := Function.update_self ..

@[simp] theorem setNode_made : (s.setNode r n).made = s.made := rfl

variable {s r n}

theorem setNode_of_ne {r' : Role} (h : r' ≠ r) : (s.setNode r n).node r' = s.node r' :=
  Function.update_of_ne h ..

theorem create_node (s : Sys) (r : Role) (c : Container) :
    (s.create r c).node = (s.setNode r { s.node r with container := c }).node := rfl

theorem create_made (s : Sys) (r : Role) (c : Container) : (s.create r c).made r = some s.fresh :=
  Function.update_self ..

theorem create_made_of_ne {c : Container} {r' : Role} (h : r' ≠ r) :
    (s.create r c).made r' = s.made r' :=
  Function.update_of_ne h ..

/-- What holds of the new node and of the other one. -/
theorem forall_setNode {P : Role → Node → Prop} (hself : P r n)
    (hother : ∀ r', r' ≠ r → P r' (s.node r')) (r' : Role) :
    P r' ((s.setNode r n).node r') := by
  rcases eq_or_ne r' r with rfl | hne
  · rw [setNode_self]
    exact hself
  · rw [setNode_of_ne hne]
    exact hother r' hne

end Sys

section Steps

variable (cfg : Config)

/-- A command of `start-glm53.sh`. -/
inductive ScriptStep : Point × Sys → Point × Sys → Prop where
  /-- A check fails, or one of the services is seen to run. -/
  | refuse {s : Sys} : ScriptStep (.before, s) (.refused, s)
  /-- No service is seen to run: a query that fails sees none. -/
  | start {s : Sys} : ScriptStep (.before, s) (.up .worker, s)
  /-- A command fails, and `cleanup_failed_start` begins. -/
  | fail {c : Point} {s : Sys} (h : c.Started) :
      ScriptStep (c, s) (.cleanup c.lost [] (.container .head), s)
  | up {r : Role} {s : Sys} : ScriptStep (.up r, s)
      (.startGuard r .config, s.create r (.running s.fresh))
  /-- `up` fails behind the removal of the old container. -/
  | upFails {r : Role} {s : Sys} {c : Container} (h : ∀ id, c.id? = some id → id = s.fresh) :
      ScriptStep (.up r, s) (.cleanup none [] (.container .head), s.create r c)
  | guardOff {r : Role} {s : Sys} (h : cfg.oomGuard r = false) :
      ScriptStep (.startGuard r .config, s) (.afterGuard r, s)
  | guardOn {r : Role} {s : Sys} (h : cfg.oomGuard r = true) :
      ScriptStep (.startGuard r .config, s) (.startGuard r (.stop .read), s)
  | guardStop {r : Role} {s : Sys} {point point' : StopPoint} {n : Node}
      (h : StopStep (cfg.startDir r) (cfg.readable r) (s.node r, point) (n, point')) :
      ScriptStep (.startGuard r (.stop point), s) (.startGuard r (.stop point'), s.setNode r n)
  | guardStopped {r : Role} {s : Sys} :
      ScriptStep (.startGuard r (.stop (.returned true)), s) (.startGuard r .spawn, s)
  | spawn {r : Role} {s : Sys} {p : ℕ} (h : (s.node r).procs p = none) :
      ScriptStep (.startGuard r .spawn, s)
        (.startGuard r (.write p), s.setNode r ((s.node r).setProc p (some (.guard true .forked))))
  | write {r : Role} {s : Sys} {p : ℕ} :
      ScriptStep (.startGuard r (.write p), s)
        (.afterGuard r, s.setNode r ((s.node r).setFile (cfg.startDir r) (.pid p)))
  /-- The file is truncated and not written, or not whole. -/
  | writeFails {r : Role} {s : Sys} {p : ℕ} {file : PidFile} :
      ScriptStep (.startGuard r (.write p), s)
        (.cleanup (some r) [] (.container .head),
          s.setNode r ((s.node r).setFile (cfg.startDir r) file))
  | checkWorker {s : Sys} {id : ℕ} (h : (s.node .worker).container = .running id) :
      ScriptStep (.checkWorker, s) (.up .head, s)
  | waitClock {s : Sys} : ScriptStep (.wait .clock, s) (.wait .head, s)
  | waitHead {s : Sys} {id : ℕ} (h : (s.node .head).container = .running id) :
      ScriptStep (.wait .head, s) (.wait .worker, s)
  | waitWorker {s : Sys} {id : ℕ} (h : (s.node .worker).container = .running id) :
      ScriptStep (.wait .worker, s) (.wait .api, s)
  | notReady {s : Sys} : ScriptStep (.wait .api, s) (.wait .clock, s)
  | ready {s : Sys} : ScriptStep (.wait .api, s) (.disarm .head .read, s)
  | disarm {r : Role} {s : Sys} {point point' : StopPoint} {n : Node}
      (h : StopStep (cfg.stopDir r) (cfg.readable r) (s.node r, point) (n, point')) :
      ScriptStep (.disarm r point, s) (.disarm r point', s.setNode r n)
  | disarmed {r : Role} {s : Sys} : ScriptStep (.disarm r (.returned true), s) (.afterDisarm r, s)
  | serve {s : Sys} : ScriptStep (.smoke, s) (.served, s)
  | stopped {lost : Option Role} {done : List Command} {r : Role} {s : Sys} :
      ScriptStep (.cleanup lost done (.container r), s)
        (.afterStop lost (.container r :: done) r,
          s.setNode r { s.node r with container := .stopped })
  /-- `compose stop` fails, maybe behind the stop. -/
  | notStopped {lost : Option Role} {done : List Command} {r : Role} {s : Sys} {c : Container}
      (h : c = .stopped ∨ c = (s.node r).container) :
      ScriptStep (.cleanup lost done (.container r), s)
        (.afterStop lost done r, s.setNode r { s.node r with container := c })
  | stopGuard {lost : Option Role} {done : List Command} {r : Role} {s : Sys}
      {point point' : StopPoint} {n : Node}
      (h : StopStep (cfg.stopDir r) (cfg.readable r) (s.node r, point) (n, point')) :
      ScriptStep (.cleanup lost done (.guard r point), s)
        (.cleanup lost done (.guard r point'), s.setNode r n)
  | guardCleaned {lost : Option Role} {done : List Command} {r : Role} {s : Sys} :
      ScriptStep (.cleanup lost done (.guard r (.returned true)), s)
        (.afterStopGuard lost (.guard r :: done) r, s)
  /-- `stop-guard-node.sh` fails, or its connection does. -/
  | guardKept {lost : Option Role} {done : List Command} {r : Role} {point : StopPoint} {s : Sys} :
      ScriptStep (.cleanup lost done (.guard r point), s) (.afterStopGuard lost done r, s)

/-- A step of the script or of one of the nodes. -/
inductive Step : Point × Sys → Point × Sys → Prop where
  | script {x y : Point × Sys} (h : ScriptStep cfg x y) : Step x y
  | node {c : Point} {s : Sys} {r : Role} {n : Node} (h : NodeStep (s.node r) n) :
      Step (c, s) (c, s.setNode r n)

/-- What is reached by steps in any order. -/
abbrev Reaches : Point × Sys → Point × Sys → Prop := Relation.ReflTransGen (Step cfg)

end Steps

/-! ### The guards of a node -/

namespace Node

/-- A guard is the process that the pid file names, and can be signalled. -/
def Recorded (dir : String) (n : Node) : Prop :=
  ∀ p, n.Guard p → n.files dir = .pid p ∧ n.OwnGuard p

def NoGuard (n : Node) : Prop := ∀ p, ¬n.Guard p

/-- What `glm53_stop_guard_pid_file` knows at its points. -/
def Stopping (dir : String) (n : Node) : StopPoint → Prop
  | .read => n.Recorded dir
  | .alive p => n.Recorded dir ∧ n.files dir = .pid p
  | .identify p => n.Recorded dir ∧ n.files dir = .pid p
  | .term p => n.Recorded dir ∧ n.files dir = .pid p
  | .poll p _ => n.Recorded dir ∧ n.files dir = .pid p
  | .again p => n.Recorded dir ∧ n.files dir = .pid p
  | .reidentify p => n.Recorded dir ∧ n.files dir = .pid p
  | .kill p => n.Recorded dir ∧ n.files dir = .pid p
  | .last p => n.Recorded dir ∧ n.files dir = .pid p
  | .remove => n.NoGuard
  | .returned ok => n.Recorded dir ∧ (ok = true → n.NoGuard)

/-- The guards and the files of `n` but for guards that have ended. -/
structure Fewer (n n' : Node) : Prop where
  files : n'.files = n.files
  guard : ∀ p own point', n'.procs p = some (.guard own point') →
    ∃ point, n.procs p = some (.guard own point)

variable {n n' : Node} {dir : String}

theorem Fewer.guard_of (hf : Fewer n n') {p : ℕ} (h : n'.Guard p) : n.Guard p := by
  obtain ⟨own, point', hp⟩ := h
  exact ⟨own, hf.guard p own point' hp⟩

theorem NoGuard.recorded (h : n.NoGuard) : n.Recorded dir := fun p hp => absurd hp (h p)

/-- Where the process of the file is no guard, there is none. -/
theorem Recorded.noGuard (h : n.Recorded dir) {p : ℕ} (hfile : n.files dir = .pid p)
    (hp : ¬n.OwnGuard p) : n.NoGuard := by
  intro q hq
  obtain ⟨hq', hown⟩ := h q hq
  have heq : q = p := PidFile.pid.inj (hq'.symm.trans hfile)
  exact hp (heq ▸ hown)

theorem Stopping.recorded {point : StopPoint} (h : n.Stopping dir point) : n.Recorded dir := by
  cases point with
  | read => exact h
  | remove => exact NoGuard.recorded h
  | _ => exact h.1

theorem Recorded.fewer (h : n.Recorded dir) (hf : Fewer n n') : n'.Recorded dir := by
  intro p hp
  obtain ⟨own, point', hp⟩ := hp
  obtain ⟨point, hold⟩ := hf.guard p own point' hp
  obtain ⟨hfile, point₀, hown⟩ := h p ⟨own, point, hold⟩
  obtain rfl : own = true := by
    rw [hold, Option.some.injEq, Proc.guard.injEq] at hown
    exact hown.1
  exact ⟨by rw [hf.files]; exact hfile, point', hp⟩

theorem NoGuard.fewer (h : n.NoGuard) (hf : Fewer n n') : n'.NoGuard :=
  fun p hp => h p (hf.guard_of hp)

theorem Stopping.fewer {point : StopPoint} (h : n.Stopping dir point) (hf : Fewer n n') :
    n'.Stopping dir point := by
  cases point with
  | read => exact Recorded.fewer h hf
  | remove => exact NoGuard.fewer h hf
  | returned ok => exact ⟨h.1.fewer hf, fun hok => (h.2 hok).fewer hf⟩
  | _ => exact ⟨h.1.fewer hf, by rw [hf.files]; exact h.2⟩

theorem fewer_setProc (p : ℕ) {x : Option Proc}
    (hx : ∀ own point', x = some (.guard own point') →
      ∃ point, n.procs p = some (.guard own point)) :
    Fewer n (n.setProc p x) where
  files := rfl
  guard q own point' hq := by
    rcases eq_or_ne q p with rfl | hne
    · exact hx own point' (by simpa [setProc] using hq)
    · exact ⟨point', by simpa [setProc, hne] using hq⟩

theorem fewer_none (p : ℕ) : Fewer n (n.setProc p none) := fewer_setProc p fun _ _ h => by simp at h

/-- A guard that goes on. -/
theorem fewer_goesOn {p : ℕ} {own : Bool} {point point' : GuardPoint}
    (h : n.procs p = some (.guard own point)) : Fewer n (n.setProc p (some (.guard own point'))) :=
  fewer_setProc p fun own' point'' heq => by
    simp only [Option.some.injEq, Proc.guard.injEq] at heq
    exact ⟨point, heq.1 ▸ h⟩

end Node

/-- Without the script there is never a new guard. -/
theorem NodeStep.fewer {n n' : Node} (h : NodeStep n n') : n.Fewer n' := by
  cases h with
  | spawn _ => exact Node.fewer_setProc _ fun _ _ heq => by simp at heq
  | exit p => exact Node.fewer_none p
  | guardExec h => exact Node.fewer_goesOn h
  | guardSees h _ => exact Node.fewer_goesOn h
  | guardSleeps h => exact Node.fewer_goesOn h
  | @guardTrips p id own h =>
    have hf : n.Fewer (n.setProc p (some (.guard own .tripped))) := Node.fewer_goesOn h
    exact ⟨hf.files, hf.guard⟩
  | _ => exact ⟨rfl, fun _ _ point h => ⟨point, h⟩⟩

/-- Without a guard a file may say anything. -/
theorem Node.NoGuard.setFile {n : Node} (h : n.NoGuard) (dir : String) (file : PidFile) :
    (n.setFile dir file).NoGuard := h

/-- **The stop of a guard.** `glm53_stop_guard_pid_file` keeps what it knows, and at its success
that is that no guard is left. -/
theorem stopStep_stopping {dir : String} {n n' : Node} {point point' : StopPoint}
    (h : StopStep dir true (n, point) (n', point')) (hn : n.Stopping dir point) :
    n'.Stopping dir point' := by
  cases h with
  | missing hfile => exact ⟨hn, fun _ p hp => by simp [(hn p hp).1] at hfile⟩
  | unseen h => cases h
  | invalid hfile =>
    have hnone : n.NoGuard := fun p hp => by simp [(hn p hp).1] at hfile
    exact ⟨(hnone.setFile dir .missing).recorded, fun _ => hnone⟩
  | unread h => cases h
  | pid hfile => exact ⟨hn, hfile⟩
  | dead h => exact hn.1.noGuard hn.2 h
  | gone h => exact hn.1.noGuard hn.2 h
  | killed h => exact hn.1.noGuard hn.2 h
  | stale => exact ⟨hn.1, by simp⟩
  | changed => exact ⟨hn.1, by simp⟩
  | survived _ => exact ⟨hn.1, by simp⟩
  | @termKills _ p => exact (show n.Stopping dir (.term p) from hn).fewer (Node.fewer_none p)
  | @killKills _ p => exact (show n.Stopping dir (.kill p) from hn).fewer (Node.fewer_none p)
  | remove =>
    have hnone : n.NoGuard := hn
    exact ⟨(hnone.setFile dir .missing).recorded, fun _ => hnone⟩
  | kept => exact ⟨Node.NoGuard.recorded hn, by simp⟩
  | invalidKept _ => exact ⟨hn, by simp⟩
  | _ => exact hn

theorem Node.NoGuard.of_stopStep {dir : String} {readable : Bool} {n n' : Node}
    {point point' : StopPoint} (hn : n.NoGuard)
    (h : StopStep dir readable (n, point) (n', point')) : n'.NoGuard := by
  cases h with
  | termKills => exact hn.fewer (Node.fewer_none _)
  | killKills => exact hn.fewer (Node.fewer_none _)
  | _ => exact hn

/-! ### The containers of a node -/

theorem Container.id?_stop {c : Container} {id id' : ℕ} (h : (c.stop id').id? = some id) :
    c.id? = some id := by
  unfold Container.stop at h
  split_ifs at h
  · simp [id?] at h
  · exact h

/-- A container is not there but where it was before. -/
theorem NodeStep.container {n n' : Node} (h : NodeStep n n') {id : ℕ}
    (hid : n'.container.id? = some id) :
    n.container.id? = some id := by
  cases h with
  | crash h => rwa [h]
  | restart h => rwa [h]
  | halt => simp [Container.id?] at hid
  | stopLands _ => exact Container.id?_stop hid
  | _ => exact hid

theorem StopStep.container {dir : String} {readable : Bool} {n n' : Node} {point point' : StopPoint}
    (h : StopStep dir readable (n, point) (n', point')) : n'.container = n.container := by
  cases h <;> rfl

theorem Container.id?_eq_none {c : Container} : c.id? = none ↔
    c = .stopped := by cases c <;> simp [Container.id?]

/-- The container is the one of this start, with an id that is not one of those before, if it is
there at all. -/
def Owned (base : ℕ) (n : Node) (made : Option ℕ) : Prop :=
  ∃ id, made = some id ∧ base ≤ id ∧ ∀ id', n.container.id? = some id' → id' = id

theorem Owned.mono {base : ℕ} {n n' : Node} {made : Option ℕ} (h : Owned base n made)
    (hn : ∀ id, n'.container.id? = some id → n.container.id? = some id) : Owned base n' made := by
  obtain ⟨id, hmade, hbase, hid⟩ := h
  exact ⟨id, hmade, hbase, fun id' h => hid id' (hn id' h)⟩

/-! ### The points of the start -/

namespace Point

/-- What is known of the guards of a node, with its pid file in `dir`. -/
def Guards (dir : String) : Point → Role → Node → Prop
  | .startGuard r (.stop point), r', n => if r' = r then n.Stopping dir point else n.Recorded dir
  | .startGuard r .spawn, r', n => if r' = r then n.NoGuard else n.Recorded dir
  | .startGuard r (.write p), r', n =>
    if r' = r then ∀ q, n.Guard q → q = p ∧ n.OwnGuard q else n.Recorded dir
  | .disarm .head point, r', n => if r' = .head then n.Stopping dir point else n.Recorded dir
  | .disarm .worker point, r', n => if r' = .worker then n.Stopping dir point else n.NoGuard
  | .smoke, _, n => n.NoGuard
  | .served, _, n => n.NoGuard
  | .cleanup lost done point, r', n => lost ≠ some r' → n.Recorded dir ∧
      (.guard r' ∈ done → n.NoGuard) ∧ ∀ stop, point = .guard r' stop → n.Stopping dir stop
  | .failed lost done, r', n =>
    lost ≠ some r' → n.Recorded dir ∧ (.guard r' ∈ done → n.NoGuard)
  | _, _, n => n.Recorded dir

/-- The container of the node is up, as far as the script knows. -/
def Up : Point → Role → Prop
  | .up r₁, r => r₁ = .head ∧ r = .worker
  | .startGuard r₁ _, r => r₁ = .head ∨ r = .worker
  | .checkWorker, r => r = .worker
  | .wait _, _ => True
  | .disarm _ _, _ => True
  | .smoke, _ => True
  | .served, _ => True
  | _, _ => False

/-- The commands of the clean-up that have succeeded. -/
def done : Point → List Command
  | .cleanup _ done _ => done
  | .failed _ done => done
  | _ => []

@[simp] theorem up_afterGuard (r₁ r : Role) : (afterGuard r₁).Up r ↔ r₁ = .head ∨ r = .worker := by
  cases r₁ <;> simp [afterGuard, Up]

@[simp] theorem up_afterDisarm (r₁ r : Role) : (afterDisarm r₁).Up r := by cases r₁ <;> trivial

@[simp] theorem not_up_afterStop (lost : Option Role) (done : List Command) (r₁ r : Role) :
    ¬(afterStop lost done r₁).Up r := by cases r₁ <;> exact id

@[simp] theorem not_up_afterStopGuard (lost : Option Role) (done : List Command) (r₁ r : Role) :
    ¬(afterStopGuard lost done r₁).Up r := by cases r₁ <;> exact id

@[simp] theorem done_cleanup (lost : Option Role) (done : List Command) (point : CleanupPoint) :
    (cleanup lost done point).done = done := rfl

@[simp] theorem done_afterGuard (r : Role) : (afterGuard r).done = [] := by cases r <;> rfl

@[simp] theorem done_afterDisarm (r : Role) : (afterDisarm r).done = [] := by cases r <;> rfl

@[simp] theorem done_afterStop (lost : Option Role) (done : List Command) (r : Role) :
    (afterStop lost done r).done = done := by cases r <;> rfl

@[simp] theorem done_afterStopGuard (lost : Option Role) (done : List Command) (r : Role) :
    (afterStopGuard lost done r).done = done := by cases r <;> rfl

theorem Guards.fewer {dir : String} {c : Point} {r : Role} {n n' : Node} (h : c.Guards dir r n)
    (hf : n.Fewer n') : c.Guards dir r n' := by
  cases c with
  | startGuard r₁ point =>
    cases point with
    | config => exact Node.Recorded.fewer h hf
    | stop point =>
      simp only [Guards] at h ⊢
      split_ifs at h ⊢
      · exact h.fewer hf
      · exact h.fewer hf
    | spawn =>
      simp only [Guards] at h ⊢
      split_ifs at h ⊢
      · exact h.fewer hf
      · exact h.fewer hf
    | write p =>
      simp only [Guards] at h ⊢
      split_ifs at h ⊢
      · intro q hq
        obtain ⟨own, point', hq⟩ := hq
        obtain ⟨point, hold⟩ := hf.guard q own point' hq
        obtain ⟨heq, point₀, hown⟩ := h q ⟨own, point, hold⟩
        obtain rfl : own = true := by
          rw [hold, Option.some.injEq, Proc.guard.injEq] at hown
          exact hown.1
        exact ⟨heq, point', hq⟩
      · exact h.fewer hf
  | disarm r₁ point =>
    cases r₁ <;> simp only [Guards] at h ⊢ <;> split_ifs at h ⊢
    · exact h.fewer hf
    · exact h.fewer hf
    · exact h.fewer hf
    · exact h.fewer hf
  | smoke => exact Node.NoGuard.fewer h hf
  | served => exact Node.NoGuard.fewer h hf
  | cleanup lost done point =>
    intro hlost
    obtain ⟨hrecorded, hnone, hstop⟩ := h hlost
    exact ⟨hrecorded.fewer hf, fun hdone => (hnone hdone).fewer hf, fun stop hpoint =>
      (hstop stop hpoint).fewer hf⟩
  | failed lost done =>
    intro hlost
    exact ⟨(h hlost).1.fewer hf, fun hdone => ((h hlost).2 hdone).fewer hf⟩
  | _ => exact Node.Recorded.fewer h hf

/-- Behind a command of the clean-up that is no stop of a guard, or is one that has been made. -/
theorem Guards.next {dir : String} {lost : Option Role} {done done' : List Command}
    {point point' : CleanupPoint} {r : Role} {n : Node}
    (h : (cleanup lost done point).Guards dir r n)
    (hdone : lost ≠ some r → .guard r ∈ done' → .guard r ∈ done ∨ n.NoGuard)
    (hpoint : ∀ stop, point' = .guard r stop → stop = .read) :
    (cleanup lost done' point').Guards dir r n := by
  intro hlost
  obtain ⟨hrecorded, hnone, -⟩ := h hlost
  refine ⟨hrecorded, fun h => (hdone hlost h).elim hnone id, fun stop hstop => ?_⟩
  rw [hpoint stop hstop]
  exact hrecorded

theorem Guards.afterStop {dir : String} {lost : Option Role} {done done' : List Command}
    {r r' : Role} {n : Node} (h : (cleanup lost done (.container r)).Guards dir r' n)
    (hdone : .guard r' ∈ done' → .guard r' ∈ done) : (afterStop lost done' r).Guards dir r' n := by
  cases r with
  | head => exact h.next (fun _ h => .inl (hdone h)) (by simp)
  | worker => exact h.next (fun _ h => .inl (hdone h)) (by simp)

theorem Guards.afterStopGuard {dir : String} {lost : Option Role} {done done' : List Command}
    {r r' : Role} {stop : StopPoint} {n : Node}
    (h : (cleanup lost done (.guard r stop)).Guards dir r' n)
    (hdone : lost ≠ some r' → .guard r' ∈ done' → .guard r' ∈ done ∨ n.NoGuard) :
    (afterStopGuard lost done' r).Guards dir r' n := by
  cases r with
  | head => exact h.next hdone (by simp)
  | worker =>
    intro hlost
    obtain ⟨hrecorded, hnone, -⟩ := h hlost
    exact ⟨hrecorded, fun h => (hdone hlost h).elim hnone id⟩

/-- While the start is on, each guard is in its file but one that is just forked. -/
theorem Guards.recorded {dir : String} {c : Point} (hc : c.Started) {r : Role} {n : Node}
    (h : c.Guards dir r n) (hlost : c.lost ≠ some r) : n.Recorded dir := by
  cases c with
  | startGuard r₁ point =>
    cases point with
    | config => exact h
    | stop point =>
      simp only [Guards] at h
      split_ifs at h
      · exact h.recorded
      · exact h
    | spawn =>
      simp only [Guards] at h
      split_ifs at h
      · exact h.recorded
      · exact h
    | write p =>
      simp only [Guards] at h
      split_ifs at h with hr
      · exact absurd (by simp [lost, hr]) hlost
      · exact h
  | disarm r₁ point =>
    cases r₁ <;> simp only [Guards] at h <;> split_ifs at h
    · exact h.recorded
    · exact h
    · exact h.recorded
    · exact h.recorded
  | smoke => exact Node.NoGuard.recorded h
  | before => exact absurd hc id
  | refused => exact absurd hc id
  | served => exact absurd hc id
  | cleanup lost done point => exact absurd hc id
  | failed lost done => exact absurd hc id
  | _ => exact h

end Point

section Run

variable {cfg : Config} {c c' : Point} {s s' : Sys}

theorem fewer_self (n : Node) : n.Fewer n := ⟨rfl, fun _ _ point h => ⟨point, h⟩⟩

/-- A node but for its container. -/
theorem fewer_container (n : Node) (container : Container) : n.Fewer { n with container } :=
  ⟨rfl, fun _ _ point h => ⟨point, h⟩⟩

theorem fewer_setNode {r : Role} {n : Node} (h : (s.node r).Fewer n) :
    ∀ r', (s.node r').Fewer ((s.setNode r n).node r') :=
  Sys.forall_setNode (P := fun r' n => (s.node r').Fewer n) h fun _ _ => fewer_self _

theorem fewer_create (r : Role) (container : Container) (r' : Role) :
    (s.node r').Fewer ((s.create r container).node r') :=
      fewer_setNode (fewer_container _ container) r'

/-- What is known of the guards of both nodes. -/
def AllGuards (cfg : Config) (c : Point) (s : Sys) : Prop :=
  ∀ r, c.Guards (cfg.stopDir r) r (s.node r)

theorem allGuards_setNode {r : Role} {n : Node} (hself : c'.Guards (cfg.stopDir r) r n)
    (hother : ∀ r', r' ≠ r → c'.Guards (cfg.stopDir r') r' (s.node r')) :
    AllGuards cfg c' (s.setNode r n) :=
  Sys.forall_setNode (P := fun r' n => c'.Guards (cfg.stopDir r') r' n) hself hother

/-- What is known of the guards at a point is known at the next one. -/
theorem guards_script (hcfg : cfg.FindsFiles) (h : ScriptStep cfg (c, s) (c', s'))
    (hg : AllGuards cfg c s) : AllGuards cfg c' s' := by
  cases h with
  | fail hc => exact fun r hlost => ⟨(hg r).recorded hc hlost, by simp, by simp⟩
  | @up r =>
    exact fun r' => Point.Guards.fewer (c := .startGuard r .config) (hg r') (fewer_create ..)
  | upFails _ => exact fun r' _ => ⟨Node.Recorded.fewer (hg r') (fewer_create ..), by simp, by simp⟩
  | @guardOff r _ => cases r <;> exact hg
  | guardOn _ =>
    intro r'
    simp only [Point.Guards]
    split_ifs
    · exact hg r'
    · exact hg r'
  | @guardStop r _ point point' n hstep =>
    rw [hcfg.dir_eq, hcfg.readable] at hstep
    refine allGuards_setNode ?_ fun r' hne => ?_
    · have hr := hg r
      simp only [Point.Guards, if_true] at hr ⊢
      exact stopStep_stopping hstep hr
    · have hr := hg r'
      simp only [Point.Guards, if_neg hne] at hr ⊢
      exact hr
  | guardStopped =>
    intro r'
    have hr := hg r'
    simp only [Point.Guards] at hr ⊢
    split_ifs at hr ⊢
    · exact hr.2 rfl
    · exact hr
  | @spawn r _ p _ =>
    refine allGuards_setNode ?_ fun r' hne => ?_
    · have hr := hg r
      simp only [Point.Guards, if_true] at hr ⊢
      rintro q ⟨own, point, hq⟩
      rcases eq_or_ne q p with rfl | hne
      · exact ⟨rfl, .forked, by simp [Node.setProc]⟩
      · exact absurd ⟨own, point, by simpa [Node.setProc, hne] using hq⟩ (hr q)
    · have hr := hg r'
      simp only [Point.Guards, if_neg hne] at hr ⊢
      exact hr
  | @write r _ p =>
    have hr := hg r
    simp only [Point.Guards, if_true] at hr
    have hrecorded : ((s.node r).setFile (cfg.stopDir r) (.pid p)).Recorded (cfg.stopDir r) :=
      fun q hq => ⟨by rw [Node.setFile_self, (hr q hq).1], (hr q hq).2⟩
    have hother : ∀ r', r' ≠ r → (s.node r').Recorded (cfg.stopDir r') := fun r' hne => by
      have hr := hg r'
      simp only [Point.Guards, if_neg hne] at hr
      exact hr
    rw [hcfg.dir_eq]
    cases r <;> exact allGuards_setNode hrecorded hother
  | @writeFails r _ p file =>
    refine allGuards_setNode (absurd rfl) fun r' hne _ => ?_
    have hr := hg r'
    simp only [Point.Guards, if_neg hne] at hr
    exact ⟨hr, by simp, by simp⟩
  | ready =>
    intro r'
    simp only [Point.Guards]
    split_ifs
    · exact hg r'
    · exact hg r'
  | @disarm r _ point point' n hstep =>
    rw [hcfg.readable] at hstep
    refine allGuards_setNode ?_ fun r' hne => ?_
    · have hr := hg r
      cases r <;> simp only [Point.Guards, if_true] at hr ⊢ <;> exact stopStep_stopping hstep hr
    · have hr := hg r'
      cases r <;> simp only [Point.Guards, if_neg hne] at hr ⊢ <;> exact hr
  | @disarmed r =>
    cases r with
    | head =>
      intro r'
      have hr := hg r'
      cases r' with
      | head => exact hr.2 rfl
      | worker => exact hr
    | worker =>
      intro r'
      have hr := hg r'
      cases r' with
      | head => exact hr
      | worker => exact hr.2 rfl
  | stopped =>
    exact fun r' => ((hg r').afterStop (by simp)).fewer (fewer_setNode (fewer_container _ _) r')
  | notStopped _ =>
    exact fun r' => ((hg r').afterStop id).fewer (fewer_setNode (fewer_container _ _) r')
  | @stopGuard lost done r _ point point' n hstep =>
    rw [hcfg.readable] at hstep
    refine allGuards_setNode (fun hlost => ?_) fun r' hne hlost => ?_
    · obtain ⟨-, hnone, hstop⟩ := hg r hlost
      have hstop' := stopStep_stopping hstep (hstop point rfl)
      refine ⟨hstop'.recorded, fun hdone => (hnone hdone).of_stopStep hstep, ?_⟩
      rintro _ ⟨⟩
      exact hstop'
    · obtain ⟨hrecorded, hnone, -⟩ := hg r' hlost
      exact ⟨hrecorded, hnone, fun stop hpoint => absurd (by cases hpoint; rfl) hne⟩
  | @guardCleaned lost done r =>
    refine fun r' => (hg r').afterStopGuard fun hlost hdone => ?_
    rcases List.mem_cons.mp hdone with h | h
    · cases h
      exact .inr (((hg r hlost).2.2 _ rfl).2 rfl)
    · exact .inl h
  | guardKept => exact fun r' => (hg r').afterStopGuard fun _ h => .inl h
  | _ => exact hg

/-- No container is new, and the clean-up counts only those it has stopped. -/
structure Keeps (x y : Point × Sys) : Prop where
  made : y.2.made = x.2.made
  fresh : y.2.fresh = x.2.fresh
  up : ∀ r, y.1.Up r → x.1.Up r
  container : ∀ r id, (y.2.node r).container.id? = some id → (x.2.node r).container.id? = some id
  done : ∀ r, .container r ∈ y.1.done → .container r ∈ x.1.done ∨ (y.2.node r).container = .stopped

theorem container_setNode {r : Role} {n : Node}
    (h : ∀ id, n.container.id? = some id → (s.node r).container.id? = some id) :
    ∀ r' id, ((s.setNode r n).node r').container.id? = some id →
      (s.node r').container.id? = some id :=
  Sys.forall_setNode (P := fun r' n => ∀ id, n.container.id? = some id →
    (s.node r').container.id? = some id) h
    fun _ _ _ => id

theorem container_eq {r : Role} {n : Node} (h : n.container = (s.node r).container) :
    ∀ r' id, ((s.setNode r n).node r').container.id? = some id →
      (s.node r').container.id? = some id :=
  container_setNode fun _ hid => h ▸ hid

theorem keeps_self (hup : ∀ r, c'.Up r → c.Up r)
    (hdone : ∀ r, .container r ∈ c'.done → .container r ∈ c.done) :
    Keeps (c, s) (c', s) := ⟨rfl, rfl, hup, fun _ _ => id, fun r h => .inl (hdone r h)⟩

theorem keeps_setNode {r : Role} {n : Node} (h : n.container = (s.node r).container)
    (hup : ∀ r, c'.Up r → c.Up r)
    (hdone : ∀ r, .container r ∈ c'.done → .container r ∈ c.done) :
    Keeps (c, s) (c', s.setNode r n) :=
  ⟨rfl, rfl, hup, container_eq h, fun r h => .inl (hdone r h)⟩

/-- A command creates a container, or it leaves those there are or stops one. -/
theorem script_container (h : ScriptStep cfg (c, s) (c', s')) :
    (∃ r container, c = .up r ∧ s' = s.create r container ∧
        (container = .running s.fresh ∧ c' = .startGuard r .config ∨
          c' = .cleanup none [] (.container .head))) ∨
      Keeps (c, s) (c', s') := by
  cases h with
  | up => exact .inl ⟨_, _, rfl, rfl, .inl ⟨rfl, rfl⟩⟩
  | upFails _ => exact .inl ⟨_, _, rfl, rfl, .inr rfl⟩
  | guardStop hstep =>
    exact .inr (keeps_setNode hstep.container (by simp [Point.Up]) (by simp [Point.done]))
  | spawn _ => exact .inr (keeps_setNode rfl (by simp [Point.Up]) (by simp [Point.done]))
  | @write r => exact .inr (keeps_setNode rfl (fun r' => (Point.up_afterGuard r r').mp) (by simp))
  | writeFails => exact .inr (keeps_setNode rfl (by simp [Point.Up]) (by simp [Point.done]))
  | disarm hstep =>
    exact .inr (keeps_setNode hstep.container (by simp [Point.Up]) (by simp [Point.done]))
  | stopGuard hstep =>
    exact .inr (keeps_setNode hstep.container (by simp [Point.Up]) (by simp [Point.done]))
  | @stopped lost done r =>
    refine .inr ⟨rfl, rfl, by simp, container_setNode (by simp [Container.id?]), fun r' hr' => ?_⟩
    rw [Point.done_afterStop, List.mem_cons, Command.container.injEq] at hr'
    rcases hr' with rfl | hr'
    · exact .inr (by simp)
    · exact .inl hr'
  | @notStopped lost done r _ container h =>
    refine .inr ⟨rfl,
      rfl, by simp, container_setNode fun id hid => ?_, fun r' hr' => .inl (by simpa using hr')⟩
    rcases h with rfl | rfl
    · simp [Container.id?] at hid
    · exact hid
  | @guardOff r _ => exact .inr (keeps_self (fun r' => (Point.up_afterGuard r r').mp) (by simp))
  | disarmed => exact .inr (keeps_self (fun _ _ => trivial) (by simp))
  | guardCleaned => exact .inr (keeps_self (by simp) (by simp))
  | guardKept => exact .inr (keeps_self (by simp) (by simp))
  | fail _ => exact .inr (keeps_self (by simp [Point.Up]) (by simp [Point.done]))
  | _ => exact .inr (keeps_self (by simp [Point.Up]) (by simp [Point.done]))

/-! ### The run -/

/-- What every step keeps holds of what is reached. -/
theorem invariant_of_reaches {I : Point × Sys → Prop}
    (hstep : ∀ {x y}, I x → Step cfg x y → I y) {x y : Point × Sys} (hx : I x)
    (h : Reaches cfg x y) : I y := by
  induction h with
  | refl => exact hx
  | tail _ h ih => exact hstep ih h

/-- What holds of the containers of a start, on nodes whose container ids were below `base`. -/
structure Inv (base : ℕ) (c : Point) (s : Sys) : Prop where
  fresh : base ≤ s.fresh
  owned : ∀ r, c.Up r → Owned base (s.node r) (s.made r)
  stopped : ∀ r, .container r ∈ c.done → (s.node r).container = .stopped

variable {base : ℕ}

theorem Inv.keeps (h : Inv base c s) (hk : Keeps (c, s) (c', s')) : Inv base c' s' where
  fresh := hk.fresh ▸ h.fresh
  owned r hr := by
    rw [show s'.made = s.made from hk.made]
    exact (h.owned r (hk.up r hr)).mono (hk.container r)
  stopped r hr := by
    refine (hk.done r hr).elim (fun hr => ?_) id
    rw [← Container.id?_eq_none, Option.eq_none_iff_forall_ne_some]
    intro id hid
    have hold := hk.container r id hid
    simp [h.stopped r hr, Container.id?] at hold

theorem inv_node {r : Role} {n : Node} (h : Inv base c s) (hn : NodeStep (s.node r) n) :
    Inv base c (s.setNode r n) :=
  h.keeps ⟨rfl, rfl, fun _ => id, container_setNode fun _ => hn.container, fun _ => .inl⟩

theorem inv_script (h : Inv base c s) (hstep : ScriptStep cfg (c, s) (c', s')) :
    Inv base c' s' := by
  rcases script_container hstep with ⟨r, container, rfl, rfl, ⟨rfl, rfl⟩ | rfl⟩ | hk
  · refine ⟨h.fresh.trans (Nat.le_succ _), fun r' hr' => ?_, by simp [Point.done]⟩
    rcases eq_or_ne r' r with rfl | hne
    · exact ⟨s.fresh, Sys.create_made .., h.fresh, by simp [Sys.create_node, Container.id?]⟩
    · rw [Sys.create_made_of_ne hne, Sys.create_node, Sys.setNode_of_ne hne]
      -- the other one is the worker, before the head
      have hup : r = .head ∧ r' = .worker := by
        rcases hr' with rfl | rfl
        · cases r' <;> simp at hne ⊢
        · cases r <;> simp at hne ⊢
      exact h.owned r' hup
  · exact ⟨h.fresh.trans (Nat.le_succ _), fun r' hr' => hr'.elim, by simp⟩
  · exact h.keeps hk

theorem inv_step {x y : Point × Sys} (h : Inv base x.1 x.2) (hstep : Step cfg x y) :
    Inv base y.1 y.2 := by
  cases hstep with
  | script hstep => exact inv_script h hstep
  | node hn => exact inv_node h hn

theorem inv_reaches {s₀ : Sys} (h : Reaches cfg (.before, s₀) (c, s)) : Inv s₀.fresh c s := by
  have hinit : Inv s₀.fresh .before s₀ := ⟨le_rfl, fun _ h => h.elim, by simp [Point.done]⟩
  exact invariant_of_reaches (I := fun x => Inv s₀.fresh x.1 x.2) inv_step hinit h

theorem guards_step (hcfg : cfg.FindsFiles) {x y : Point × Sys} (h : AllGuards cfg x.1 x.2)
    (hstep : Step cfg x y) : AllGuards cfg y.1 y.2 := by
  cases hstep with
  | script hstep => exact guards_script hcfg hstep h
  | node hn => exact fun r' => (h r').fewer (fewer_setNode hn.fewer r')

/-- Where the pid files are found, the script knows the guards all along. -/
theorem guards_reaches (hcfg : cfg.FindsFiles) {s₀ : Sys}
    (h₀ : ∀ r, (s₀.node r).Recorded (cfg.stopDir r)) (h : Reaches cfg (.before, s₀) (c, s)) :
    AllGuards cfg c s := by
  have hinit : AllGuards cfg .before s₀ := h₀
  exact invariant_of_reaches (I := fun x => AllGuards cfg x.1 x.2) (guards_step hcfg) hinit h

/-- Where the script is at its end, only the nodes go on. -/
theorem reaches_ended (hc : ∀ s x, ¬ScriptStep cfg (c, s) x) (h : Reaches cfg (c, s) (c', s')) :
    c' = c ∧ ∀ r, Relation.ReflTransGen NodeStep (s.node r) (s'.node r) := by
  generalize hy : (c', s') = y at h
  induction h generalizing c' s' with
  | refl =>
    cases hy
    exact ⟨rfl, fun r => .refl⟩
  | @tail x y _ hstep ih =>
    obtain ⟨c₁, s₁⟩ := x
    obtain ⟨rfl, hnodes⟩ := ih rfl
    subst hy
    cases hstep with
    | script hstep => exact absurd hstep (hc _ _)
    | node hn =>
      exact ⟨rfl, Sys.forall_setNode (P := fun r n => Relation.ReflTransGen NodeStep (s.node r) n)
        ((hnodes _).tail hn)
        fun r' _ => hnodes r'⟩

theorem not_script_served (s : Sys) (x : Point × Sys) : ¬ScriptStep cfg (.served, s) x := by
  intro h
  cases h with
  | fail hc => exact hc

theorem script_refused (h : ScriptStep cfg (c, s) (c', s')) (hc : c' = .before ∨ c' = .refused) :
    c = .before ∧ s' = s := by
  cases h with
  | refuse => exact ⟨rfl, rfl⟩
  | @guardOff r _ => cases r <;> simp [Point.afterGuard] at hc
  | @write r => cases r <;> simp [Point.afterGuard] at hc
  | @disarmed r => cases r <;> simp [Point.afterDisarm] at hc
  | @stopped _ _ r => cases r <;> simp [Point.afterStop] at hc
  | @notStopped _ _ r _ _ _ => cases r <;> simp [Point.afterStop] at hc
  | @guardCleaned _ _ r => cases r <;> simp [Point.afterStopGuard] at hc
  | @guardKept _ _ r => cases r <;> simp [Point.afterStopGuard] at hc
  | _ => simp at hc

/-- Up to `STARTED=1` the script leaves the nodes to themselves. -/
theorem reaches_before {s₀ : Sys} (h : Reaches cfg (.before, s₀) (c, s))
    (hc : c = .before ∨ c = .refused) :
    ∀ r, Relation.ReflTransGen NodeStep (s₀.node r) (s.node r) := by
  generalize hx : (c, s) = x at h
  induction h generalizing c s with
  | refl =>
    cases hx
    exact fun r => .refl
  | @tail y z _ hstep ih =>
    obtain ⟨c₁, s₁⟩ := y
    subst hx
    cases hstep with
    | script hstep =>
      obtain ⟨hbefore, rfl⟩ := script_refused hstep hc
      exact ih (.inl hbefore) rfl
    | node hn =>
      exact Sys.forall_setNode (P := fun r n => Relation.ReflTransGen NodeStep (s₀.node r) n)
        ((ih hc rfl _).tail hn)
        fun r' _ => ih hc rfl r'

/-- Without a guard there are no new requests. -/
theorem NodeStep.stops {n n' : Node} (h : NodeStep n n') (hn : n.NoGuard) :
    n'.stops.Sublist n.stops := by
  cases h with
  | guardTrips h => exact absurd ⟨_, _, h⟩ (hn _)
  | stopLands _ => exact List.erase_sublist
  | stopFails _ => exact List.erase_sublist
  | _ => exact .refl _

/-- A node without a guard that goes on by itself. -/
theorem unguarded_run {n n' : Node} (h : Relation.ReflTransGen NodeStep n n') (hn : n.NoGuard) :
    n'.NoGuard ∧ n'.stops.Sublist n.stops ∧ ∀ id, n'.container.id? = some id →
      n.container.id? = some id := by
  induction h with
  | refl => exact ⟨hn, .refl _, fun _ => id⟩
  | tail _ hstep ih =>
    obtain ⟨hnone, hstops, hcontainer⟩ := ih
    exact ⟨hnone.fewer hstep.fewer, (hstep.stops hnone).trans hstops, fun id hid =>
      hcontainer id (hstep.container hid)⟩

/-- **No guard outlives the start.** Take a start that finds the pid files it has written, on nodes
whose guards are its user's and stand in their files. Where it serves, there is no guard on either
node, then or later, so the only requests to stop a container are those still on their way; and what
runs is the container that this start has created, which no request from before names. -/
theorem served_unguarded (hcfg : cfg.FindsFiles) {s₀ : Sys}
    (h₀ : ∀ r, (s₀.node r).Recorded (cfg.stopDir r))
    (hids : ∀ r, ∀ id ∈ (s₀.node r).stops, id < s₀.fresh)
    (h : Reaches cfg (.before, s₀) (.served, s)) (hlater : Reaches cfg (.served, s) (c, s')) :
    c = .served ∧ ∀ r, (s'.node r).NoGuard ∧ (s'.node r).stops.Sublist (s.node r).stops ∧
      ∃ id, s.made r = some id ∧ id ∉ (s₀.node r).stops ∧
        ∀ id', (s'.node r).container.id? = some id' → id' = id := by
  obtain ⟨rfl, hnodes⟩ := reaches_ended not_script_served hlater
  refine ⟨rfl, fun r => ?_⟩
  obtain ⟨hnone, hstops, hcontainer⟩ := unguarded_run (hnodes r) (guards_reaches hcfg h₀ h r)
  obtain ⟨id, hmade, hbase, hid⟩ := (inv_reaches h).owned r trivial
  exact ⟨hnone, hstops, id, hmade, fun hmem => absurd (hids r id hmem) (Nat.not_lt.mpr hbase),
    fun id' h => hid id' (hcontainer id' h)⟩

/-- **What a start that does not serve leaves.** One that is refused has not touched the nodes. One
that fails has stopped each container that a command of its clean-up says it has stopped, and they
stay so. Where the start finds the pid files it has written, on nodes whose guards were its user's
and stood in their files, the same holds of the guards, and the next start finds each that is left
in its file, but for the guard of a node whose pid file could not be written. -/
theorem unserved_cleaned {s₀ : Sys} (h : Reaches cfg (.before, s₀) (c, s)) :
    (c = .refused → ∀ r, Relation.ReflTransGen NodeStep (s₀.node r) (s.node r)) ∧
      ∀ lost done, c = .failed lost done → ∀ r,
        (.container r ∈ done → (s.node r).container = .stopped) ∧
          (cfg.FindsFiles → (∀ r, (s₀.node r).Recorded (cfg.stopDir r)) → lost ≠ some r →
            (s.node r).Recorded (cfg.stopDir r) ∧ (.guard r ∈ done → (s.node r).NoGuard)) := by
  refine ⟨fun hc => reaches_before h (.inr hc), ?_⟩
  rintro lost done rfl r
  exact ⟨(inv_reaches h).stopped r, fun hcfg h₀ => guards_reaches hcfg h₀ h r⟩

end Run

/-! ### A start that serves and one that fails -/

/-- Two nodes without a service. -/
def idle : Sys where
  node _ := ⟨.stopped, fun _ => none, fun _ => .missing, []⟩
  fresh := 0
  made _ := none

theorem idle_recorded (dir : String) (r : Role) : (idle.node r).Recorded dir :=
  fun _ hp => absurd hp (Node.not_guard rfl)

theorem idle_stops (r : Role) : ∀ id ∈ (idle.node r).stops, id < idle.fresh := by simp [idle]

section Runs

variable {cfg : Config}

/-- The worker's guard is spawned, sees the container and stands in its file; the head has none. -/
theorem worker_guarded (hguard : ∀ r, cfg.oomGuard r = true ↔ r = .worker) :
    ∃ s, Reaches cfg (.before, idle) (.disarm .worker .read, s) ∧
      (s.node .worker).procs 7 = some (.guard true (.saw 0)) ∧
      (s.node .worker).files = Function.update (fun _ => .missing) (cfg.startDir .worker)
        (.pid 7) := by
  have hworker : cfg.oomGuard .worker = true := (hguard .worker).mpr rfl
  have hhead : cfg.oomGuard .head = false :=
    Bool.eq_false_iff.mpr fun h => by simpa using (hguard .head).mp h
  have h := (Relation.ReflTransGen.refl (r := Step cfg) (a := (Point.before, idle))).tail
    (.script .start)
  have h := (h.tail (.script .up)).tail (.script (.guardOn hworker))
  have h := (h.tail (.script (.guardStop (.missing rfl)))).tail (.script .guardStopped)
  have h := (h.tail (.script (.spawn (p := 7) rfl))).tail (.script .write)
  have h := (h.tail (.node (r := .worker) (.guardExec (p := 7) rfl))).tail
    (.node (r := .worker) (.guardSees (p := 7) rfl rfl))
  have h := (h.tail (.script (.checkWorker rfl))).tail (.script .up)
  have h := (h.tail (.script (.guardOff hhead))).tail (.script .waitClock)
  have h := (h.tail (.script (.waitHead rfl))).tail (.script (.waitWorker rfl))
  have h := (h.tail (.script .ready)).tail (.script (.disarm (.missing rfl)))
  exact ⟨_, h.tail (.script .disarmed), rfl, rfl⟩

/-- **The state directory.** Where the worker's guard is recorded in another directory than the one
it is looked for in, a start may serve with it. -/
theorem served_guarded (hguard : ∀ r, cfg.oomGuard r = true ↔ r = .worker)
    (hdir : cfg.startDir .worker ≠ cfg.stopDir .worker) :
    ∃ s, Reaches cfg (.before, idle) (.served, s) ∧ (s.node .worker).Guard 7 := by
  obtain ⟨s, h, hguard, hfiles⟩ := worker_guarded hguard
  have hmissing : (s.node .worker).files (cfg.stopDir .worker) = .missing := by
    rw [hfiles, Function.update_of_ne hdir.symm]
  have h := (h.tail (.script (.disarm (.missing hmissing)))).tail (.script .disarmed)
  exact ⟨s, by simpa [Sys.setNode] using h.tail (.script .serve), _, _, hguard⟩

end Runs

/-- Only the worker has a guard. -/
def workerGuard : Config where
  oomGuard r := r = .worker
  env _ := none
  file := none
  root _ := "glm53"
  readable _ := true

theorem workerGuard_finds : workerGuard.FindsFiles := ⟨rfl, fun _ => rfl⟩

theorem workerGuard_iff (r : Role) : workerGuard.oomGuard r = true ↔ r = .worker := by
  simp [workerGuard]

/-- The worker's guard is killed. -/
theorem served_reached : ∃ s, Reaches workerGuard (.before, idle) (.served, s) := by
  obtain ⟨s, h, hguard, hfiles⟩ := worker_guarded workerGuard_iff
  have hfile : (s.node .worker).files (workerGuard.stopDir .worker) = .pid 7 := by
    rw [hfiles]
    rfl
  have h := (h.tail (.script (.disarm (.pid hfile)))).tail
    (.script (.disarm (.alive (by simp [hguard]))))
  have h := h.tail (.script (.disarm (.isGuard ⟨true, .saw 0, by simpa using hguard, by simp⟩)))
  have h := h.tail (.script (.disarm .termKills))
  have h :=
    (h.tail (.script (.disarm (.polled (.inl (Node.not_ownGuard (by simp [Node.setProc]))))))).tail
    (.script (.disarm (.gone (Node.not_ownGuard (by simp [Node.setProc])))))
  have h := (h.tail (.script (.disarm .remove))).tail (.script .disarmed)
  exact ⟨_, h.tail (.script .serve)⟩

theorem served_unguarded_worker : ∃ s, Reaches workerGuard (.before, idle) (.served, s) ∧
    ∀ r, (s.node r).NoGuard ∧
      ∃ id, s.made r = some id ∧ ∀ id', (s.node r).container.id? = some id' → id' = id := by
  obtain ⟨s, hs⟩ := served_reached
  refine ⟨s, hs, fun r => ?_⟩
  obtain ⟨hnone, -, id, hmade, -, hid⟩ :=
    (served_unguarded workerGuard_finds (fun r => idle_recorded _ r) idle_stops hs .refl).2 r
  exact ⟨hnone, id, hmade, hid⟩

/-- The worker's guard cannot be recorded. -/
theorem failed_reached : ∃ s, Reaches workerGuard (.before, idle)
    (.failed (some .worker) [.guard .head, .container .worker, .container .head], s) := by
  have h := (Relation.ReflTransGen.refl (r := Step workerGuard) (a := (Point.before, idle))).tail
    (.script .start)
  have h := (h.tail (.script .up)).tail (.script (.guardOn rfl))
  have h := (h.tail (.script (.guardStop (.missing rfl)))).tail (.script .guardStopped)
  have h := (h.tail (.script (.spawn (p := 7) rfl))).tail
    (.script (@ScriptStep.writeFails _ _ _ _ .invalid))
  have h := (h.tail (.script .stopped)).tail (.script .stopped)
  have h := (h.tail (.script (.stopGuard (.missing rfl)))).tail (.script .guardCleaned)
  exact ⟨_, h.tail (.script .guardKept)⟩

theorem unserved_cleaned_unrecorded :
    ∃ s lost done, Reaches workerGuard (.before, idle) (.failed lost done, s) ∧
      (∀ r, (s.node r).container = .stopped) ∧ (s.node .head).NoGuard := by
  obtain ⟨s, hs⟩ := failed_reached
  have h := fun r => (unserved_cleaned hs).2 _ _ rfl r
  refine ⟨s, _, _, hs, fun r => (h r).1 ?_,
    ((h .head).2 workerGuard_finds (fun r => idle_recorded _ r) (by simp)).2 (by simp)⟩
  cases r <;> simp

end Glm53Serve.Sglang.BringUp
