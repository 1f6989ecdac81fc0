import Mathlib.Data.List.Induction
import Mathlib.Logic.Function.Basic

/-!
# Environments in layers

An environment assigns values to some variables. A file of assignments is read over an
environment, its last assignment to a variable deciding; a lookup that goes through several
layers takes the first that assigns the variable.

## What is proved

* `source_apply` — reading a file over an environment.
* `orDefault_of_ne_nil` — a value that is not empty leaves no room for a default.
-/

namespace Environ

variable {κ α : Type*}

/-- An environment. -/
abbrev Env (κ α : Type*) := κ → Option (List α)

/-- The assignments of a file, in order. -/
abbrev File (κ α : Type*) := List (κ × List α)

/-- `$\x7bx:-d\x7d`: the value, or `d` where it is unset or empty. -/
def orDefault (d : List α) : Option (List α) → List α
  | some (a :: t) => a :: t
  | _ => d

section
variable [DecidableEq κ]

/-- The environment with a variable set. -/
def set (env : Env κ α) (x : κ) (v : List α) : Env κ α := Function.update env x (some v)

/-- What the file says of a variable: its last assignment. -/
def assigned (file : File κ α) : Env κ α := fun x => (file.reverse.find? (·.1 = x)).map (·.2)

/-- The environment after the assignments of a file. -/
def source (env : Env κ α) (file : File κ α) : Env κ α := file.foldl (fun e a => set e a.1 a.2) env

@[simp] theorem set_self (env : Env κ α) (x : κ) (v : List α) : set env x v x = some v :=
  Function.update_self ..

theorem set_of_ne (env : Env κ α) {x y : κ} (h : y ≠ x) (v : List α) : set env x v y = env y :=
  Function.update_of_ne h ..

/-- What a file does not assign is as before. -/
theorem source_apply (file : File κ α) : ∀ (env : Env κ α) (x : κ),
    source env file x = (assigned file x).or (env x) := by
  induction file using List.reverseRecOn with
  | nil => exact fun _ _ => rfl
  | append_singleton file a ih =>
    intro env x
    rw [source, List.foldl_append, List.foldl_cons, List.foldl_nil, ← source]
    by_cases hx : x = a.1
    · subst hx
      simp [assigned]
    · rw [set_of_ne _ hx, ih]
      simp [assigned, Ne.symm hx]

end

@[simp] theorem orDefault_nil_some (t : List α) : orDefault [] (some t) = t := by
  cases t <;> rfl

/-- A value that is not empty leaves no room for a default. -/
theorem orDefault_of_ne_nil {v : Option (List α)} (h : orDefault [] v ≠ []) (d : List α) :
    orDefault d v = orDefault [] v := by
  rcases v with _ | _ | ⟨a, t⟩
  · exact absurd rfl h
  · exact absurd rfl h
  · rfl

theorem orDefault_some_orDefault (d : List α) (v : Option (List α)) :
    orDefault d (some (orDefault [] v)) = orDefault d v := by
  rcases v with _ | _ | ⟨a, t⟩ <;> rfl

theorem orDefault_of_eq_nil {v : Option (List α)} (h : orDefault [] v = []) (d : List α) :
    orDefault d v = d := by
  rcases v with _ | _ | ⟨a, t⟩
  · rfl
  · rfl
  · cases h

theorem eq_nil_of_orDefault {d : List α} {v : Option (List α)} (h : orDefault d v = []) :
    d = [] := by
  rcases v with _ | _ | ⟨a, t⟩
  · exact h
  · exact h
  · cases h

end Environ
