import Mathlib.Algebra.BigOperators.Group.Finset.Basic
import Mathlib.Algebra.Order.BigOperators.Group.Finset
import Mathlib.Data.Finset.Max
import Mathlib.Data.Fintype.Basic
import Mathlib.Data.List.Count
import Mathlib.Logic.Relation

/-!
# Threads with shared memory, asynchronous copies and a barrier

The threads of a block run programs without branches on a shared memory. A copy is issued by an
instruction and lands at any time after it; the copies of a thread are committed in groups, and
`wait n` lets at most the newest `n` groups pend. No thread passes a barrier before all have
reached it. Several addresses may have one location in memory, as with a buffer that is used again.

## What is proved

* `Inv`, `Reached.inv` — what holds in every interleaving of programs that are race-free.
* `Reached.log` — in particular every read gives what belongs to its address.
* `Reached.apart` — threads are at most a barrier apart.
* `exists_finished` — threads with equally many barriers never block, and end.
-/

namespace AsyncThreads

variable {ι α β V : Type*}

/-! ### The machine -/

/-- An instruction, with the address in the program and the value that is stored or copied. -/
inductive Instr (α V : Type*) where
  | store (a : α) (v : V)
  | copy (a : α) (v : V)
  | commit
  | wait (n : ℕ)
  | barrier
  | read (a : α)

/-- A thread. -/
structure Thread (α V : Type*) where
  /-- What it has executed. -/
  done : List (Instr α V)
  /-- What it has left. -/
  rest : List (Instr α V)
  /-- How many groups it has committed. -/
  groups : ℕ
  /-- The copies that have not landed, with their group. -/
  flight : List (ℕ × α × V)
  /-- What it has read. -/
  log : List V

/-- A block of threads. -/
structure State (ι α β V : Type*) where
  mem : β → V
  threads : ι → Thread α V

/-- How many barriers are in a list. -/
def barriers : List (Instr α V) → ℕ
  | [] => 0
  | .barrier :: l => barriers l + 1
  | _ :: l => barriers l

/-- How many barriers a thread has passed. -/
def Thread.passed (t : Thread α V) : ℕ := barriers t.done

/-- The thread stands at a barrier. -/
def Thread.AtBarrier (t : Thread α V) : Prop := t.rest.head? = some .barrier

/-- The thread can execute the instruction. -/
def Enabled (s : State ι α β V) (i : ι) : Instr α V → Prop
  | .wait n => ∀ e ∈ (s.threads i).flight, (s.threads i).groups ≤ e.1 + n
  | .barrier => ∀ j, (s.threads i).passed < (s.threads j).passed ∨
      (s.threads j).passed = (s.threads i).passed ∧ (s.threads j).AtBarrier
  | _ => True

/-- The thread after an instruction. -/
def Thread.exec (t : Thread α V) (value : α → V) : Instr α V → Thread α V
  | .copy a v => ⟨t.done ++ [.copy a v], t.rest.tail, t.groups,
      t.flight ++ [(t.groups, a, v)], t.log⟩
  | .commit => ⟨t.done ++ [.commit], t.rest.tail, t.groups + 1, t.flight, t.log⟩
  | .read a => ⟨t.done ++ [.read a], t.rest.tail, t.groups, t.flight, t.log ++ [value a]⟩
  | x => ⟨t.done ++ [x], t.rest.tail, t.groups, t.flight, t.log⟩

variable [DecidableEq ι] [DecidableEq β] (loc : α → β)

/-- The memory after an instruction. -/
def execMem (mem : β → V) : Instr α V → β → V
  | .store a v => Function.update mem (loc a) v
  | _ => mem

/-- A step of the block. -/
inductive Step (s : State ι α β V) : State ι α β V → Prop where
  /-- A thread executes its next instruction. -/
  | run {i : ι} {x : Instr α V} {rest : List (Instr α V)} :
      (s.threads i).rest = x :: rest → Enabled s i x →
      Step s ⟨execMem loc s.mem x,
        Function.update s.threads i ((s.threads i).exec (fun a => s.mem (loc a)) x)⟩
  /-- A copy lands. -/
  | land {i : ι} {before after : List (ℕ × α × V)} {g : ℕ} {a : α} {v : V} :
      (s.threads i).flight = before ++ (g, a, v) :: after →
      Step s ⟨Function.update s.mem (loc a) v,
        Function.update s.threads i { s.threads i with flight := before ++ after }⟩

/-- The block before the first step, with anything in memory. -/
def start (prog : ι → List (Instr α V)) (mem : β → V) : State ι α β V :=
  ⟨mem, fun i => ⟨[], prog i, 0, [], []⟩⟩

/-- The states of the runs of the programs. -/
def Reached (prog : ι → List (Instr α V)) (s : State ι α β V) : Prop :=
  ∃ mem, Relation.ReflTransGen (Step loc) (start prog mem) s

/-- Every thread has come to its end. -/
def Finished (s : State ι α β V) : Prop := ∀ i, (s.threads i).rest = []

/-! ### What a program does to a location -/

/-- What an instruction writes. -/
def Instr.writes : Instr α V → Option (α × V)
  | .store a v => some (a, v)
  | .copy a v => some (a, v)
  | _ => none

/-- The addresses that are read. -/
def reads (l : List (Instr α V)) : List α :=
  l.filterMap fun
    | .read a => some a
    | _ => none

/-- The last write to a location. -/
def lastWrite (b : β) (l : List (Instr α V)) : Option (α × V) :=
  (l.reverse.filterMap Instr.writes).find? fun w => loc w.1 = b

/-- The groups that are committed and the copies that may pend, if none lands before it is waited
for. -/
def pendStep (p : ℕ × List (ℕ × α × V)) : Instr α V → ℕ × List (ℕ × α × V)
  | .copy a v => (p.1, p.2 ++ [(p.1, a, v)])
  | .commit => (p.1 + 1, p.2)
  | .wait n => (p.1, p.2.filter fun e => p.1 ≤ e.1 + n)
  | _ => p

/-- What may pend after a list of instructions. -/
def pending (l : List (Instr α V)) : ℕ × List (ℕ × α × V) := l.foldl pendStep (0, [])

/-- Programs without races: each location is written by one thread, which has waited for its copies
to it before it writes there again, and where a thread may read an address, it was the last that was
written to its location, and has landed. -/
structure RaceFree (prog : ι → List (Instr α V)) (owner : β → ι) (value : α → V) : Prop where
  owned : ∀ i, ∀ x ∈ prog i, ∀ w ∈ x.writes, owner (loc w.1) = i
  fresh : ∀ i done x rest, prog i = done ++ x :: rest → ∀ w ∈ x.writes,
    ∀ e ∈ (pending done).2, loc e.2.1 ≠ loc w.1
  readable : ∀ j done a rest, prog j = done ++ .read a :: rest →
    ∀ done' rest', prog (owner (loc a)) = done' ++ rest' →
      barriers done' = barriers done ∨
      (barriers done' + 1 = barriers done ∧ rest'.head? = some .barrier) →
      lastWrite loc (loc a) done' = some (a, value a) ∧ ∀ e ∈ (pending done').2, loc e.2.1 ≠ loc a

/-! ### Lists of instructions -/

section
variable {loc}

omit [DecidableEq ι] [DecidableEq β] in
theorem pending_concat (l : List (Instr α V)) (x : Instr α V) :
    pending (l ++ [x]) = pendStep (pending l) x :=
  List.foldl_append

theorem lastWrite_append (b : β) (l l' : List (Instr α V)) :
    lastWrite loc b (l ++ l') = (lastWrite loc b l').or (lastWrite loc b l) := by
  rw [lastWrite, List.reverse_append, List.filterMap_append, List.find?_append]
  rfl

theorem lastWrite_concat_of_eq {b : β} {l : List (Instr α V)} {x : Instr α V} {w : α × V}
    (hx : x.writes = some w) (hw : loc w.1 = b) : lastWrite loc b (l ++ [x]) = some w := by
  rw [lastWrite_append]
  simp [lastWrite, hx, hw]

theorem lastWrite_concat_of_ne {b : β} {l : List (Instr α V)} {x : Instr α V}
    (hx : ∀ w ∈ x.writes, loc w.1 ≠ b) : lastWrite loc b (l ++ [x]) = lastWrite loc b l := by
  have hnone : lastWrite loc b [x] = none := by
    cases hw : x.writes with
    | none => simp [lastWrite, hw]
    | some w => simp [lastWrite, hw, hx w hw]
  rw [lastWrite_append, hnone, Option.none_or]

theorem exists_of_lastWrite {b : β} {l : List (Instr α V)} {w : α × V}
    (h : lastWrite loc b l = some w) :
    loc w.1 = b ∧ ∃ x ∈ l, x.writes = some w := by
  rw [lastWrite] at h
  obtain ⟨x, hx, hw⟩ := List.mem_filterMap.mp (List.mem_of_find?_eq_some h)
  exact ⟨by simpa using List.find?_some h, x, List.mem_reverse.mp hx, hw⟩

theorem lastWrite_append_of_ne {b : β} {l l' : List (Instr α V)}
    (h : ∀ x ∈ l', ∀ w ∈ x.writes, loc w.1 ≠ b) :
    lastWrite loc b (l ++ l') = lastWrite loc b l := by
  induction l' using List.reverseRecOn with
  | nil => rw [List.append_nil]
  | append_singleton l' x ih =>
    rw [← List.append_assoc, lastWrite_concat_of_ne (h x (by simp)), ih fun y hy =>
      h y (by simp [hy])]

/-- A write that is the only one to its location is the last. -/
theorem lastWrite_of_forall {b : β} {l : List (Instr α V)} {w : α × V}
    (hmem : ∃ x ∈ l, w ∈ x.writes)
    (hw : loc w.1 = b) (h : ∀ x ∈ l, ∀ w' ∈ x.writes, loc w'.1 = b → w' = w) :
    lastWrite loc b l = some w := by
  cases hlast : lastWrite loc b l with
  | none =>
    obtain ⟨x, hx, hwx⟩ := hmem
    rw [lastWrite, List.find?_eq_none] at hlast
    exact absurd (decide_eq_true hw)
      (hlast w (List.mem_filterMap.mpr ⟨x, List.mem_reverse.mpr hx, hwx⟩))
  | some w' =>
    obtain ⟨hloc, x, hx, hwx⟩ := exists_of_lastWrite hlast
    rw [h x hx w' hwx hloc]

omit [DecidableEq ι] [DecidableEq β] in
/-- What may pend has been issued. -/
theorem mem_pending_append {l l' : List (Instr α V)} {e : ℕ × α × V}
    (he : e ∈ (pending (l ++ l')).2) :
    e ∈ (pending l).2 ∨ Instr.copy e.2.1 e.2.2 ∈ l' := by
  induction l' using List.reverseRecOn with
  | nil => exact .inl (by rwa [List.append_nil] at he)
  | append_singleton l' x ih =>
    rw [← List.append_assoc, pending_concat] at he
    have hstep : e ∈ (pending (l ++ l')).2 ∨ x = .copy e.2.1 e.2.2 := by
      cases x with
      | copy a v =>
        rcases List.mem_append.mp he with he | he
        · exact .inl he
        · obtain rfl := List.mem_singleton.mp he
          exact .inr rfl
      | wait n => exact .inl (List.mem_filter.mp he).1
      | store | commit | barrier | read => exact .inl he
    rcases hstep with hold | rfl
    · exact (ih hold).imp_right (List.mem_append_left _)
    · exact .inr (by simp)

omit [DecidableEq ι] [DecidableEq β] in
/-- Without a commit all copies are of the group that is open. -/
theorem pending_append_of_no_commit {l l' : List (Instr α V)} (h : Instr.commit ∉ l') :
    (pending (l ++ l')).1 = (pending l).1 ∧
      ∀ e ∈ (pending (l ++ l')).2, e ∈ (pending l).2 ∨
        (e.1 = (pending l).1 ∧ Instr.copy e.2.1 e.2.2 ∈ l') := by
  induction l' using List.reverseRecOn with
  | nil =>
    rw [List.append_nil]
    exact ⟨rfl, fun e he => .inl he⟩
  | append_singleton l' x ih =>
    obtain ⟨hgroups, hmem⟩ := ih fun hc => h (List.mem_append_left _ hc)
    rw [← List.append_assoc, pending_concat]
    have hold : ∀ e ∈ (pending (l ++ l')).2, e ∈ (pending l).2 ∨
        (e.1 = (pending l).1 ∧ Instr.copy e.2.1 e.2.2 ∈ l' ++ [x]) := fun e he =>
      (hmem e he).imp_right fun ⟨hg, hc⟩ => ⟨hg, List.mem_append_left _ hc⟩
    cases x with
    | copy a v =>
      refine ⟨hgroups, fun e he => ?_⟩
      rcases List.mem_append.mp he with he | he
      · exact hold e he
      · obtain rfl := List.mem_singleton.mp he
        exact .inr ⟨hgroups, by simp⟩
    | wait n => exact ⟨hgroups, fun e he => hold e (List.mem_filter.mp he).1⟩
    | commit => exact absurd (by simp) h
    | store | barrier | read => exact ⟨hgroups, hold⟩

omit [DecidableEq ι] [DecidableEq β] in
theorem pending_append_of_quiet {l l' : List (Instr α V)}
    (h : ∀ x ∈ l', x = .barrier ∨ ∃ a, x = .read a) : pending (l ++ l') = pending l := by
  induction l' using List.reverseRecOn with
  | nil => rw [List.append_nil]
  | append_singleton l' x ih =>
    rw [← List.append_assoc, pending_concat, ih fun y hy => h y (List.mem_append_left _ hy)]
    rcases h x (by simp) with rfl | ⟨a, rfl⟩ <;> rfl

omit [DecidableEq ι] [DecidableEq β] in
@[simp] theorem reads_append (l l' : List (Instr α V)) : reads (l ++ l') = reads l ++ reads l' :=
  List.filterMap_append

omit [DecidableEq ι] [DecidableEq β] in
@[simp] theorem barriers_append (l l' : List (Instr α V)) :
    barriers (l ++ l') = barriers l + barriers l' := by
  induction l with
  | nil => simp [barriers]
  | cons x l ih =>
    cases x with
    | barrier => simp [barriers, ih, Nat.add_right_comm]
    | store | copy | commit | wait | read => simpa [barriers] using ih

end

/-- A program by turns: what is left begins with the rest of a turn, and later turns follow. -/
theorem split_turns {γ : Type*} {f : ℕ → List γ} {n : ℕ} {l l' : List γ}
    (h : (List.range n).flatMap f = l ++ l') : (l' = [] ∧ l = (List.range n).flatMap f) ∨
      ∃ k < n, ∃ p p', f k = p ++ p' ∧ p' ≠ [] ∧ l = (List.range k).flatMap f ++ p ∧ p' <+: l' ∧
        ∀ x ∈ l', x ∈ p' ∨ ∃ k', k < k' ∧ k' < n ∧ x ∈ f k' := by
  induction n generalizing l' with
  | zero =>
    obtain ⟨rfl, rfl⟩ := List.append_eq_nil_iff.mp h.symm
    exact .inl ⟨rfl, rfl⟩
  | succ n ih =>
    rw [List.range_succ, List.flatMap_append, List.flatMap_singleton] at h
    rcases List.append_eq_append_iff.mp h with ⟨p, hl, hf⟩ | ⟨c, hl, rfl⟩
    · rcases eq_or_ne l' [] with rfl | hne
      · refine .inl ⟨rfl, ?_⟩
        rw [List.range_succ, List.flatMap_append, List.flatMap_singleton, hl, hf, List.append_nil]
      · exact .inr ⟨n, n.lt_succ_self, p, l', hf, hne, hl, List.prefix_rfl, fun x hx => .inl hx⟩
    · rcases ih hl with ⟨rfl, hdone⟩ | ⟨k, hk, p, p', hf, hne, hdone, hpre, hrest⟩
      · rcases eq_or_ne (f n) [] with hnil | hne
        · refine .inl ⟨by simp [hnil], ?_⟩
          rw [List.range_succ, List.flatMap_append, List.flatMap_singleton, hnil,
            List.append_nil, hdone]
        · exact .inr ⟨n, n.lt_succ_self, [], f n, rfl, hne, by rw [hdone, List.append_nil],
            List.prefix_rfl, fun x hx => .inl hx⟩
      · refine .inr ⟨k, hk.trans n.lt_succ_self, p, p', hf, hne, hdone,
          hpre.trans (List.prefix_append _ _), fun x hx => ?_⟩
        rcases List.mem_append.mp hx with hx | hx
        · exact (hrest x hx).imp_right fun ⟨k', h1, h2, h3⟩ => ⟨k', h1, h2.trans n.lt_succ_self, h3⟩
        · exact .inr ⟨n, hk, n.lt_succ_self, hx⟩

/-! ### One instruction -/

section
variable {t : Thread α V} {value : α → V} {x : Instr α V}

omit [DecidableEq ι] [DecidableEq β]

@[simp] theorem done_exec : (t.exec value x).done = t.done ++ [x] := by cases x <;> rfl

@[simp] theorem rest_exec : (t.exec value x).rest = t.rest.tail := by cases x <;> rfl

theorem groups_exec (flight : List (ℕ × α × V)) :
    (t.exec value x).groups = (pendStep (t.groups, flight) x).1 := by cases x <;> rfl

theorem log_exec : (t.exec value x).log = t.log ++ (reads [x]).map value := by
  cases x <;> simp [Thread.exec, reads]

/-- A copy in flight after an instruction was in flight before it, or has been issued by it. -/
theorem flight_exec {e : ℕ × α × V} (he : e ∈ (t.exec value x).flight) :
    e ∈ t.flight ∨ (x = .copy e.2.1 e.2.2 ∧ e.1 = t.groups) := by
  cases x with
  | copy a v =>
    rcases List.mem_append.mp he with he | he
    · exact .inl he
    · obtain rfl := List.mem_singleton.mp he
      exact .inr ⟨rfl, rfl⟩
  | store | commit | wait | barrier | read => exact .inl he

theorem mem_flight_exec {e : ℕ × α × V} (he : e ∈ t.flight) : e ∈ (t.exec value x).flight := by
  cases x with
  | copy a v => exact List.mem_append_left _ he
  | store | commit | wait | barrier | read => exact he

end

/-! ### The invariant -/

/-- What holds of a thread by itself. -/
structure Local (prog : List (Instr α V)) (value : α → V) (t : Thread α V) : Prop where
  program : t.done ++ t.rest = prog
  groups : t.groups = (pending t.done).1
  flight : ∀ e ∈ t.flight, e ∈ (pending t.done).2
  last : ∀ e ∈ t.flight, lastWrite loc (loc e.2.1) t.done = some e.2
  log : t.log = (reads t.done).map value

/-- What holds in every interleaving. -/
structure Inv (prog : ι → List (Instr α V)) (owner : β → ι) (value : α → V)
    (s : State ι α β V) : Prop where
  threads : ∀ i, Local loc (prog i) value (s.threads i)
  memory : ∀ b w, lastWrite loc b (s.threads (owner b)).done = some w →
    (∀ e ∈ (s.threads (owner b)).flight, loc e.2.1 ≠ b) → s.mem b = w.2
  apart : ∀ i j, (s.threads i).passed ≤ (s.threads j).passed ∨
    (s.threads i).passed = (s.threads j).passed + 1 ∧ (s.threads j).AtBarrier

variable {loc} {prog : ι → List (Instr α V)} {owner : β → ι} {value : α → V}
    {s : State ι α β V} {i : ι}
  {x : Instr α V} {rest : List (Instr α V)}

omit [DecidableEq ι] in
theorem inv_start (mem : β → V) : Inv loc prog owner value (start prog mem) :=
  ⟨fun _ => ⟨rfl, rfl, by simp [start], by simp [start], rfl⟩, by simp [start, lastWrite],
    fun _ _ => .inl le_rfl⟩

omit [DecidableEq ι] in
/-- A thread is at a read: what it reads is there. -/
theorem Inv.read (hfree : RaceFree loc prog owner value) (h : Inv loc prog owner value s) {a : α}
    (hrest : (s.threads i).rest = .read a :: rest) : s.mem (loc a) = value a := by
  have hprog := (h.threads i).program
  have hprog' := (h.threads (owner (loc a))).program
  rw [hrest] at hprog
  have hnear : barriers (s.threads (owner (loc a))).done = barriers (s.threads i).done ∨
      barriers (s.threads (owner (loc a))).done + 1 = barriers (s.threads i).done ∧
        (s.threads (owner (loc a))).rest.head? = some .barrier := by
    rcases h.apart i (owner (loc a)) with hle | ⟨heq, hat⟩
    · rcases h.apart (owner (loc a)) i with hge | ⟨-, hat⟩
      · exact .inl (le_antisymm hge hle)
      · rw [Thread.AtBarrier, hrest] at hat
        cases hat
    · exact .inr ⟨heq.symm, hat⟩
  obtain ⟨hlast, hpending⟩ := hfree.readable i _ a rest hprog.symm _ _ hprog'.symm hnear
  exact h.memory (loc a) _ hlast fun e he => hpending e ((h.threads _).flight e he)

omit [DecidableEq ι] in
/-- The thread that executes an instruction. -/
theorem Inv.local_run (hfree : RaceFree loc prog owner value) (h : Inv loc prog owner value s)
    (hrest : (s.threads i).rest = x :: rest) (hen : Enabled s i x) :
    Local loc (prog i) value ((s.threads i).exec (fun a => s.mem (loc a)) x) := by
  have ht := h.threads i
  have hprog := ht.program
  rw [hrest] at hprog
  refine ⟨?_, ?_, fun e he => ?_, fun e he => ?_, ?_⟩
  · rw [done_exec, rest_exec, hrest, List.tail_cons, List.append_assoc,
      List.singleton_append, hprog]
  · rw [done_exec, pending_concat, groups_exec (pending (s.threads i).done).2, ht.groups]
  · rw [done_exec, pending_concat]
    rcases flight_exec he with hold | ⟨rfl, hg⟩
    · have hmem := ht.flight e hold
      cases x with
      | wait n => exact List.mem_filter.mpr ⟨hmem, by simpa [ht.groups] using hen e hold⟩
      | copy a v => exact List.mem_append_left _ hmem
      | store | commit | barrier | read => exact hmem
    · refine List.mem_append_right _ (List.mem_singleton.mpr ?_)
      rw [← ht.groups, ← hg]
  · rw [done_exec]
    rcases flight_exec he with hold | ⟨rfl, -⟩
    · -- no copy to a location pends where it is written again
      rw [lastWrite_concat_of_ne fun w hw heq =>
        hfree.fresh i _ x rest hprog.symm w hw e (ht.flight e hold) heq.symm]
      exact ht.last e hold
    · exact lastWrite_concat_of_eq rfl rfl
  · rw [log_exec, done_exec, ht.log]
    cases x with
    | read a =>
      have hread := h.read hfree hrest
      simp [reads, hread]
    | store | copy | commit | wait | barrier => simp [reads]

omit [DecidableEq ι] in
/-- The location of a copy in flight is the thread's own. -/
theorem Inv.owner_flight (hfree : RaceFree loc prog owner value) (h : Inv loc prog owner value s)
    {e : ℕ × α × V} (he : e ∈ (s.threads i).flight) : owner (loc e.2.1) = i := by
  obtain ⟨-, x, hx, hw⟩ := exists_of_lastWrite ((h.threads i).last e he)
  exact hfree.owned i x ((h.threads i).program ▸ List.mem_append_left _ hx) e.2 hw

/-- Only the owner of a location changes it. -/
theorem execMem_of_ne {mem : β → V} {b : β} (h : ∀ w ∈ x.writes, loc w.1 ≠ b) :
    execMem loc mem x b = mem b := by
  cases x with
  | store a v => exact Function.update_of_ne (h (a, v) rfl).symm _ _
  | copy | commit | wait | barrier | read => rfl

/-- The memory, when a thread executes an instruction. -/
theorem Inv.memory_run (hfree : RaceFree loc prog owner value) (h : Inv loc prog owner value s)
    (hrest : (s.threads i).rest = x :: rest) {b : β} {w : α × V} {t : Thread α V}
    (ht : t = Function.update s.threads i ((s.threads i).exec (fun a => s.mem (loc a)) x) (owner b))
    (hlast : lastWrite loc b t.done = some w) (hflight : ∀ e ∈ t.flight, loc e.2.1 ≠ b) :
    execMem loc s.mem x b = w.2 := by
  have hx : x ∈ prog i := (h.threads i).program ▸ hrest ▸ List.mem_append_right _ List.mem_cons_self
  by_cases hi : owner b = i
  · rw [hi, Function.update_self] at ht
    subst ht
    rw [done_exec] at hlast
    by_cases hb : ∃ w' ∈ x.writes, loc w'.1 = b
    · obtain ⟨w', hw', hloc⟩ := hb
      rw [lastWrite_concat_of_eq hw' hloc, Option.some.injEq] at hlast
      subst hlast
      cases x with
      | store a v =>
        obtain rfl := Option.some.inj hw'
        rw [execMem, ← hloc, Function.update_self]
      | copy a v =>
        -- it is in flight
        obtain rfl := Option.some.inj hw'
        exact absurd hloc (hflight _ (List.mem_append_right _ List.mem_cons_self))
      | commit | wait | barrier | read => cases hw'
    · push Not at hb
      rw [lastWrite_concat_of_ne hb] at hlast
      rw [execMem_of_ne hb]
      subst hi
      exact h.memory b w hlast fun e he => hflight e (mem_flight_exec he)
  · rw [Function.update_of_ne hi] at ht
    subst ht
    have hne : ∀ w' ∈ x.writes, loc w'.1 ≠ b := fun w' hw' hloc =>
      hi (by rw [← hloc]; exact hfree.owned i x hx w' hw')
    rw [execMem_of_ne hne]
    exact h.memory b w hlast hflight

/-- Threads are a barrier apart, when one of them executes an instruction. -/
theorem Inv.apart_run (h : Inv loc prog owner value s) (hrest : (s.threads i).rest = x :: rest)
    (hen : Enabled s i x) {threads : ι → Thread α V}
    (ht : threads = Function.update s.threads i ((s.threads i).exec (fun a => s.mem (loc a)) x))
    (j k : ι) :
    (threads j).passed ≤ (threads k).passed ∨
      (threads j).passed = (threads k).passed + 1 ∧ (threads k).AtBarrier := by
  have hself : (threads i).passed = (s.threads i).passed + barriers [x] := by
    rw [ht, Function.update_self, Thread.passed, done_exec, barriers_append]
    rfl
  have hother : ∀ l, l ≠ i → threads l = s.threads l :=
    fun l hl => by rw [ht, Function.update_of_ne hl]
  rcases eq_or_ne k i with rfl | hk
  · rcases eq_or_ne j k with rfl | hj
    · exact .inl le_rfl
    · rw [hother j hj, hself]
      rcases h.apart j k with hle | ⟨heq, hat⟩
      · exact .inl (by omega)
      · rw [Thread.AtBarrier, hrest] at hat
        obtain rfl := Option.some.inj hat
        exact .inl heq.le
  · rcases eq_or_ne j i with rfl | hj
    · rw [hother k hk, hself]
      cases x with
      | barrier =>
        have hpass : barriers [(.barrier : Instr α V)] = 1 := rfl
        rcases hen k with hlt | ⟨heq, hat⟩
        · exact .inl (by omega)
        · exact .inr ⟨by omega, hat⟩
      | store | copy | commit | wait | read => exact h.apart j k
    · rw [hother j hj, hother k hk]
      exact h.apart j k

/-- The memory, when a copy lands. -/
theorem Inv.memory_land (hfree : RaceFree loc prog owner value) (h : Inv loc prog owner value s)
    {before after : List (ℕ × α × V)} {g : ℕ} {a : α} {v : V}
    (he : (s.threads i).flight = before ++ (g, a, v) :: after) {b : β} {w : α × V} {t : Thread α V}
    (ht : t = Function.update s.threads i { s.threads i with flight := before ++ after } (owner b))
    (hlast : lastWrite loc b t.done = some w) (hflight : ∀ e ∈ t.flight, loc e.2.1 ≠ b) :
    Function.update s.mem (loc a) v b = w.2 := by
  have hmem : (g, a, v) ∈ (s.threads i).flight := he ▸ List.mem_append_right _ List.mem_cons_self
  have howner : owner (loc a) = i := h.owner_flight hfree hmem
  have hdone : t.done = (s.threads (owner b)).done := by
    by_cases hi : owner b = i
    · rw [ht, hi, Function.update_self]
    · rw [ht, Function.update_of_ne hi]
  rw [hdone] at hlast
  by_cases hb : loc a = b
  · rw [← hb, Function.update_self]
    have hlanded := (h.threads i).last _ hmem
    rw [← hb, howner] at hlast
    rw [← Option.some.inj (hlanded.symm.trans hlast)]
  · rw [Function.update_of_ne (Ne.symm hb)]
    refine h.memory b w hlast fun e hold => ?_
    by_cases hi : owner b = i
    · rw [hi, Function.update_self] at ht
      subst ht
      rw [hi, he, List.mem_append, List.mem_cons] at hold
      rcases hold with hold | rfl | hold
      · exact hflight e (List.mem_append_left _ hold)
      · exact hb
      · exact hflight e (List.mem_append_right _ hold)
    · rw [Function.update_of_ne hi] at ht
      subst ht
      exact hflight e hold

/-- A step keeps the invariant. -/
theorem Inv.step (hfree : RaceFree loc prog owner value) (h : Inv loc prog owner value s)
    {s' : State ι α β V} (hs : Step loc s s') : Inv loc prog owner value s' := by
  cases hs with
  | @run i x rest hrest hen =>
    refine ⟨fun j => ?_, fun b w hlast hflight => h.memory_run hfree hrest rfl hlast hflight,
      h.apart_run hrest hen rfl⟩
    rcases eq_or_ne j i with rfl | hj
    · simpa only [Function.update_self] using h.local_run hfree hrest hen
    · simpa only [Function.update_of_ne hj] using h.threads j
  | @land i before after g a v he =>
    have hsub : ∀ e ∈ before ++ after, e ∈ (s.threads i).flight := fun e hmem => by
      rw [he]
      rcases List.mem_append.mp hmem with hmem | hmem
      · exact List.mem_append_left _ hmem
      · exact List.mem_append_right _ (List.mem_cons_of_mem _ hmem)
    have hsame : ∀ j, (Function.update s.threads i
        { s.threads i with flight := before ++ after } j).done = (s.threads j).done ∧
        (Function.update s.threads i { s.threads i with flight := before ++ after } j).rest =
          (s.threads j).rest := fun j => by
      rcases eq_or_ne j i with rfl | hj
      · rw [Function.update_self]
        exact ⟨rfl, rfl⟩
      · rw [Function.update_of_ne hj]
        exact ⟨rfl, rfl⟩
    refine ⟨fun j => ?_, fun b w hlast hflight =>
      h.memory_land hfree he rfl hlast hflight, fun j k => ?_⟩
    · rcases eq_or_ne j i with rfl | hj
      · simp only [Function.update_self]
        have ht := h.threads j
        exact ⟨ht.program, ht.groups, fun e hmem => ht.flight e (hsub e hmem),
          fun e hmem => ht.last e (hsub e hmem), ht.log⟩
      · simpa only [Function.update_of_ne hj] using h.threads j
    · simp only [Thread.passed, Thread.AtBarrier, (hsame _).1, (hsame _).2]
      exact h.apart j k

theorem Reached.inv (hfree : RaceFree loc prog owner value) (h : Reached loc prog s) :
    Inv loc prog owner value s := by
  obtain ⟨mem, hrun⟩ := h
  induction hrun with
  | refl => exact inv_start mem
  | tail _ hs ih => exact ih.step hfree hs

/-- What a thread has read is what belongs to the addresses. -/
theorem Reached.log (hfree : RaceFree loc prog owner value) (h : Reached loc prog s) (i : ι) :
    (s.threads i).log = (reads (s.threads i).done).map value :=
  ((h.inv hfree).threads i).log

/-! ### Runs come to their end -/

section
variable [Fintype ι]

/-- What is left to do. -/
def measure (s : State ι α β V) : ℕ :=
  ∑ i, (2 * (s.threads i).rest.length + (s.threads i).flight.length)

omit [DecidableEq β] in
theorem measure_update {t : Thread α V} {mem : β → V}
    (h : 2 * t.rest.length + t.flight.length < 2 * (s.threads i).rest.length +
      (s.threads i).flight.length) :
    measure (⟨mem, Function.update s.threads i t⟩ : State ι α β V) < measure s := by
  refine Finset.sum_lt_sum (fun j _ => ?_) ⟨i, Finset.mem_univ i, ?_⟩
  · rcases eq_or_ne j i with rfl | hj
    · simpa only [Function.update_self] using h.le
    · simp only [Function.update_of_ne hj, le_refl]
  · simpa only [Function.update_self] using h

/-- Every step leaves less to do. -/
theorem measure_step {s' : State ι α β V} (hs : Step loc s s') : measure s' < measure s := by
  cases hs with
  | @run i x rest hrest hen =>
    refine measure_update ?_
    rw [rest_exec, hrest, List.tail_cons, List.length_cons]
    cases x with
    | copy a v =>
      simp only [Thread.exec, List.length_append, List.length_singleton]
      omega
    | store | commit | wait | barrier | read =>
      simp only [Thread.exec]
      omega
  | @land i before after g a v he =>
    refine measure_update ?_
    simp only [he, List.length_append, List.length_cons]
    omega

omit [Fintype ι] in
/-- A thread can go on, one of its copies can land, or it stands at a barrier. -/
theorem exists_step_of_not_atBarrier (hrest : (s.threads i).rest ≠ [])
    (hat : ¬(s.threads i).AtBarrier) :
    ∃ s', Step loc s s' := by
  obtain ⟨x, rest, hx⟩ := List.exists_cons_of_ne_nil hrest
  by_cases hen : Enabled s i x
  · exact ⟨_, .run hx hen⟩
  · cases hflight : (s.threads i).flight with
    | cons e flight => exact ⟨_, .land (hflight.trans (List.nil_append _).symm)⟩
    | nil =>
      exfalso
      cases x with
      | wait n => exact hen fun e he => by simp [hflight] at he
      | barrier => exact hat (by rw [Thread.AtBarrier, hx]; rfl)
      | store | copy | commit | read => exact hen trivial

/-- Threads with equally many barriers never block. -/
theorem Inv.exists_step [Nonempty ι] (h : Inv loc prog owner value s)
    (hbarriers : ∀ i j, barriers (prog i) = barriers (prog j)) (hfin : ¬Finished s) :
    ∃ s', Step loc s s' := by
  have htotal : ∀ j, (s.threads j).passed + barriers (s.threads j).rest = barriers (prog j) :=
      fun j => by
    rw [← (h.threads j).program, barriers_append]
    rfl
  -- the thread that has passed the fewest barriers
  obtain ⟨i, -, hmin⟩ := Finset.exists_min_image Finset.univ (fun i => (s.threads i).passed)
    Finset.univ_nonempty
  by_cases hi : (s.threads i).AtBarrier
  · obtain ⟨rest, hrest⟩ := List.head?_eq_some_iff.mp hi
    by_cases hen : Enabled s i .barrier
    · exact ⟨_, .run hrest hen⟩
    · simp only [Enabled, not_forall, not_or, not_and] at hen
      obtain ⟨j, hlt, hat⟩ := hen
      have heq : (s.threads j).passed = (s.threads i).passed :=
        le_antisymm (Nat.not_lt.mp hlt) (hmin j (Finset.mem_univ j))
      refine exists_step_of_not_atBarrier (fun hnil => ?_) (hat heq)
      -- it has a barrier before it, as `i` has
      have hj := htotal j
      have hi' := htotal i
      rw [hnil] at hj
      rw [hrest] at hi'
      have := hbarriers i j
      simp only [barriers] at hj hi'
      omega
  · by_cases hrest : (s.threads i).rest = []
    · simp only [Finished, not_forall] at hfin
      obtain ⟨j, hj⟩ := hfin
      refine exists_step_of_not_atBarrier hj fun hat => ?_
      obtain ⟨rest, hat⟩ := List.head?_eq_some_iff.mp hat
      have hj' := htotal j
      have hi' := htotal i
      have hle := hmin j (Finset.mem_univ j)
      have := hbarriers i j
      rw [hrest] at hi'
      rw [hat] at hj'
      simp only [barriers] at hj' hi'
      omega
    · exact exists_step_of_not_atBarrier hrest hi

/-- Every run comes to its end. -/
theorem Reached.exists_finished [Nonempty ι] (hfree : RaceFree loc prog owner value)
    (h : Reached loc prog s)
    (hbarriers : ∀ i j, barriers (prog i) = barriers (prog j)) :
    ∃ s', Relation.ReflTransGen (Step loc) s s' ∧ Finished s' := by
  induction hn : measure s using Nat.strong_induction_on generalizing s with
  | _ n ih =>
    by_cases hfin : Finished s
    · exact ⟨s, .refl, hfin⟩
    · obtain ⟨t, hst⟩ := (h.inv hfree).exists_step hbarriers hfin
      obtain ⟨mem, hrun⟩ := h
      obtain ⟨s', hts', hs'⟩ := ih (measure t) (hn ▸ measure_step hst) ⟨mem, hrun.tail hst⟩ rfl
      exact ⟨s', .head hst hts', hs'⟩

end

end AsyncThreads
