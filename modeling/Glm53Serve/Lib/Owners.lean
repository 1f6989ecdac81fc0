import Mathlib.Data.List.Nodup
import Mathlib.Logic.Function.Basic

/-!
# Programs with cells of their own

The programs of a launch run side by side. Each is a list of steps, and every step changes the
cell of its program alone. Then the order in which the steps of different programs are taken
does not matter.

## What is proved

* `Runs.own` — a program leaves in its cell what it leaves there when it runs alone.
* `Runs.other` — the cells of no program stay.
* `runs_serial` — the programs can run one after the other.
-/

namespace Owners

variable {ι κ σ : Type*} [DecidableEq ι] [DecidableEq κ] {owner : ι → κ}

/-- The launch takes `s` to `s'` in some interleaving: `progs` is what is left of each program. -/
inductive Runs (owner : ι → κ) : (ι → List (σ → σ)) → (κ → σ) → (κ → σ) → Prop where
  /-- Nothing is left. -/
  | done {progs : ι → List (σ → σ)} {s : κ → σ} : (∀ i, progs i = []) → Runs owner progs s s
  /-- The program `i` takes its next step. -/
  | step {progs : ι → List (σ → σ)} {s s' : κ → σ} {i : ι} {f : σ → σ} {fs : List (σ → σ)} :
      progs i = f :: fs →
      Runs owner (Function.update progs i fs) (Function.update s (owner i) (f (s (owner i)))) s' →
      Runs owner progs s s'

/-- The steps of a program, one after the other. -/
def alone (fs : List (σ → σ)) (x : σ) : σ := fs.foldl (fun x f => f x) x

@[simp] theorem alone_nil (x : σ) : alone [] x = x := rfl

@[simp] theorem alone_cons (f : σ → σ) (fs : List (σ → σ)) (x : σ) :
    alone (f :: fs) x = alone fs (f x) := rfl

theorem alone_append (fs gs : List (σ → σ)) (x : σ) : alone (fs ++ gs) x = alone gs (alone fs x) :=
  List.foldl_append

theorem update_ne_nil {progs : ι → List (σ → σ)} {i j : ι} {f : σ → σ} {fs : List (σ → σ)}
    (hi : progs i = f :: fs) (h : Function.update progs i fs j ≠ []) : progs j ≠ [] := by
  rcases eq_or_ne j i with rfl | hj
  · rw [hi]
    exact List.cons_ne_nil f fs
  · rwa [Function.update_of_ne hj] at h

/-- A program leaves in its cell what it leaves there alone. -/
theorem Runs.own {progs : ι → List (σ → σ)} {s s' : κ → σ} (h : Runs owner progs s s') {i : ι}
    (hapart : ∀ j, progs j ≠ [] → owner j = owner i → j = i) :
    s' (owner i) = alone (progs i) (s (owner i)) := by
  induction h with
  | done hnil => rw [hnil i, alone_nil]
  | @step progs s s' j f fs hj _ ih =>
    rw [ih fun l hl => hapart l (update_ne_nil hj hl)]
    rcases eq_or_ne i j with rfl | hij
    · rw [Function.update_self, Function.update_self, hj, alone_cons]
    · have howner : owner i ≠ owner j := fun heq =>
        hij (hapart j (hj ▸ List.cons_ne_nil f fs) heq.symm).symm
      rw [Function.update_of_ne hij, Function.update_of_ne howner]

/-- The cells of no program stay. -/
theorem Runs.other {progs : ι → List (σ → σ)} {s s' : κ → σ} (h : Runs owner progs s s') {k : κ}
    (hk : ∀ j, progs j ≠ [] → owner j ≠ k) : s' k = s k := by
  induction h with
  | done => rfl
  | @step progs s s' j f fs hj _ ih =>
    rw [ih fun l hl => hk l (update_ne_nil hj hl),
      Function.update_of_ne (hk j (hj ▸ List.cons_ne_nil f fs)).symm]

/-- The programs of a list, one after the other. -/
def serial (owner : ι → κ) (progs : ι → List (σ → σ)) (order : List ι) (s : κ → σ) : κ → σ :=
  order.foldl (fun s i => Function.update s (owner i) (alone (progs i) (s (owner i)))) s

theorem runs_alone {progs : ι → List (σ → σ)} {s s' : κ → σ} {i : ι} {fs : List (σ → σ)}
    (hi : progs i = fs)
    (h : Runs owner (Function.update progs i [])
      (Function.update s (owner i) (alone fs (s (owner i)))) s') :
    Runs owner progs s s' := by
  induction fs generalizing progs s with
  | nil =>
    rw [← hi, Function.update_eq_self, hi, alone_nil, Function.update_eq_self] at h
    exact h
  | cons f fs ih =>
    refine .step hi (ih (Function.update_self ..) ?_)
    rwa [Function.update_idem, Function.update_idem, Function.update_self, ← alone_cons]

/-- The programs can run one after the other. -/
theorem runs_serial {order : List ι} (hnodup : order.Nodup) :
    ∀ {progs : ι → List (σ → σ)} {s : κ → σ}, (∀ i, progs i ≠ [] → i ∈ order) →
      Runs owner progs s (serial owner progs order s) := by
  induction order with
  | nil =>
    intro progs s hall
    exact .done fun i => by_contra fun h => List.not_mem_nil (hall i h)
  | cons i order ih =>
    intro progs s hall
    obtain ⟨hi, hnodup⟩ := List.nodup_cons.mp hnodup
    refine runs_alone (i := i) rfl ?_
    have hrest : Runs owner (Function.update progs i [])
        (Function.update s (owner i) (alone (progs i) (s (owner i)))) _ :=
      ih hnodup fun j hj => by
        rcases eq_or_ne j i with rfl | hne
        · exact absurd (Function.update_self ..) hj
        · rw [Function.update_of_ne hne] at hj
          exact (List.mem_cons.mp (hall j hj)).resolve_left hne
    have hserial : ∀ t : κ → σ, serial owner (Function.update progs i []) order t =
        serial owner progs order t := by
      intro t
      refine List.foldl_ext _ _ _ fun t j hj => ?_
      have hne : j ≠ i := fun h => hi (h ▸ hj)
      rw [Function.update_of_ne hne]
    rwa [hserial] at hrest

end Owners
