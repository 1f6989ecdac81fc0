import Mathlib.Data.Nat.Basic
import Mathlib.Logic.Relation

/-!
# Machines that end with a result

A loop as a machine: a step goes to another state or ends with a result. `Ends s r`
says that running from `s` ends with `r`.

## What is proved

* `Ends.unique`, `ends_iff_of_step` — the machine is deterministic.
* `Ends.of_inv` — an invariant of the steps gives a property of the result.
* `Reaches.of_inv` — and of every state on the way.
* `Reaches.ends_iff` — a state on the way ends as the run does.
* `not_ends_of_inv` — a machine that can always go on does not end.
* `exists_ends` — a machine whose steps lower a measure ends.
* `ends_of_runFor` — a run with fuel that ends shows what the machine ends with.
-/

namespace Machine

universe u v

variable {σ : Type u} {ρ : Type v} {step : σ → σ ⊕ ρ}

/-- Running the machine from a state ends with a result. -/
inductive Ends (step : σ → σ ⊕ ρ) : σ → ρ → Prop where
  /-- The step ends. -/
  | done {s : σ} {r : ρ} : step s = .inr r → Ends step s r
  /-- The step goes on, and what follows ends. -/
  | next {s s' : σ} {r : ρ} : step s = .inl s' → Ends step s' r → Ends step s r

theorem ends_iff_of_step {s s' : σ} {r : ρ} (h : step s = .inl s') :
    Ends step s r ↔ Ends step s' r := by
  constructor
  · intro he
    cases he with
    | done hd => rw [h] at hd; cases hd
    | next hn he =>
      rw [h] at hn
      cases hn
      exact he
  · exact Ends.next h

theorem ends_iff_of_done {s : σ} {r r' : ρ} (h : step s = .inr r) : Ends step s r' ↔ r' = r := by
  constructor
  · intro he
    cases he with
    | done hd => rw [h] at hd; exact (Sum.inr.inj hd).symm
    | next hn _ => rw [h] at hn; cases hn
  · rintro rfl
    exact Ends.done h

/-- A machine ends with one result only. -/
theorem Ends.unique {s : σ} {r r' : ρ} (h : Ends step s r) (h' : Ends step s r') : r' = r := by
  induction h with
  | done hd => exact (ends_iff_of_done hd).mp h'
  | next hn _ ih => exact ih ((ends_iff_of_step hn).mp h')

/-- **Invariant rule**: what every step preserves, and gives `post` where it ends, gives
`post` of the result. -/
theorem Ends.of_inv (inv : σ → Prop) (post : ρ → Prop) {s : σ} {r : ρ} (h : Ends step s r)
    (hstep : ∀ s s', inv s → step s = .inl s' → inv s')
    (hdone : ∀ s r, inv s → step s = .inr r → post r) (hs : inv s) : post r := by
  induction h with
  | done hd => exact hdone _ _ hs hd
  | next hn _ ih => exact ih (hstep _ _ hs hn)

/-- The machine goes from one state to the other. -/
def Reaches (step : σ → σ ⊕ ρ) : σ → σ → Prop := Relation.ReflTransGen fun s s' => step s = .inl s'

theorem Reaches.single {s s' : σ} (h : step s = .inl s') : Reaches step s s' :=
  Relation.ReflTransGen.single h

theorem Reaches.tail {s s' s'' : σ} (h : Reaches step s s') (h' : step s' = .inl s'') :
    Reaches step s s'' :=
  Relation.ReflTransGen.tail h h'

/-- **Invariant rule** for the states on the way. -/
theorem Reaches.of_inv (inv : σ → Prop) {s s' : σ} (h : Reaches step s s')
    (hstep : ∀ s s', inv s → step s = .inl s' → inv s') (hs : inv s) : inv s' := by
  induction h with
  | refl => exact hs
  | tail _ hlast ih => exact hstep _ _ ih hlast

/-- A state on the way ends as the run does. -/
theorem Reaches.ends_iff {s s' : σ} (h : Reaches step s s') {r : ρ} :
    Ends step s r ↔ Ends step s' r := by
  induction h with
  | refl => exact Iff.rfl
  | tail _ hlast ih => exact ih.trans (ends_iff_of_step hlast)

/-- What ends has a last state. -/
theorem Ends.exists_last {s : σ} {r : ρ} (h : Ends step s r) :
    ∃ s', Reaches step s s' ∧ step s' = .inr r := by
  induction h with
  | done hd => exact ⟨_, .refl, hd⟩
  | next hn _ ih =>
    obtain ⟨s', hreach, hd⟩ := ih
    exact ⟨s', .head hn hreach, hd⟩

/-- **Divergence rule**: from states of which each goes on to another one, the machine does
not end. -/
theorem not_ends_of_inv (inv : σ → Prop) (hstep : ∀ s, inv s → ∃ s', step s = .inl s' ∧ inv s')
    {s : σ} (hs : inv s) (r : ρ) : ¬ Ends step s r := by
  intro h
  induction h with
  | done hd =>
    obtain ⟨s', hs', -⟩ := hstep _ hs
    rw [hd] at hs'
    cases hs'
  | next hn _ ih =>
    obtain ⟨s', hs', hinv⟩ := hstep _ hs
    rw [hn] at hs'
    cases hs'
    exact ih hinv

/-- **Measure rule**: if every step from a state that satisfies an invariant keeps it and
lowers a measure, the machine ends. -/
theorem exists_ends (inv : σ → Prop) (measure : σ → ℕ)
    (hstep : ∀ s s', inv s → step s = .inl s' → inv s' ∧ measure s' < measure s) {s : σ}
    (hs : inv s) : ∃ r, Ends step s r := by
  induction hm : measure s using Nat.strong_induction_on generalizing s with
  | _ n ih =>
    cases h : step s with
    | inr r => exact ⟨r, .done h⟩
    | inl s' =>
      obtain ⟨hinv, hlt⟩ := hstep s s' hs h
      obtain ⟨r, hr⟩ := ih (measure s') (by omega) hinv rfl
      exact ⟨r, .next h hr⟩

/-- Run at most `n` steps. -/
def runFor (step : σ → σ ⊕ ρ) : ℕ → σ → σ ⊕ ρ
  | 0, s => .inl s
  | n + 1, s =>
    match step s with
    | .inl s' => runFor step n s'
    | .inr r => .inr r

theorem ends_of_runFor {n : ℕ} {s : σ} {r : ρ} (h : runFor step n s = .inr r) : Ends step s r := by
  induction n generalizing s with
  | zero => cases h
  | succ n ih =>
    rw [runFor] at h
    cases hs : step s with
    | inl s' => rw [hs] at h; exact .next hs (ih h)
    | inr r' => rw [hs] at h; cases h; exact .done hs

end Machine
