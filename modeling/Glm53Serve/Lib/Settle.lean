import Mathlib.Data.Nat.Notation
import Mathlib.Tactic.SplitIfs

/-!
# Steps repeated until they settle

A step that never raises a measure is repeated until it leaves the measure as it is. With
more fuel than the measure it always comes to that.

## What is proved

* `settle_sim` — two systems that go in lockstep end in lockstep.
* `settle_rule` — what holds of one system at the end.
-/

universe u v

namespace Settle

variable {σ : Type u} {τ : Type v}

/-- Repeat the step until it leaves the measure as it is, up to `fuel` times. -/
def settle (step : σ → σ) (measure : σ → ℕ) : ℕ → σ → σ
  | 0, s => s
  | fuel + 1, s =>
    if measure (step s) = measure s then step s else settle step measure fuel (step s)

variable {step : σ → σ} {measure : σ → ℕ} {step' : τ → τ} {measure' : τ → ℕ}

/-- **Lockstep.** Two systems of equal measures, related by `R` before each step, are related by
`R'` after the step at which they settle. -/
theorem settle_sim (R R' : σ → τ → Prop) (hle : ∀ t, measure' (step' t) ≤ measure' t)
    (hmeasure : ∀ {s t}, R s t → measure s = measure' t ∧ measure (step s) = measure' (step' t))
    (hstep : ∀ {s t}, R s t → measure' (step' t) ≠ measure' t → R (step s) (step' t))
    (hlast : ∀ {s t}, R s t → measure' (step' t) = measure' t → R' (step s) (step' t)) :
    ∀ (fuel : ℕ) {s : σ} {t : τ}, measure' t < fuel → R s t →
      R' (settle step measure fuel s) (settle step' measure' fuel t) := by
  intro fuel
  induction fuel with
  | zero => exact fun h => absurd h (Nat.not_lt_zero _)
  | succ fuel ih =>
    intro s t hfuel h
    obtain ⟨h1, h2⟩ := hmeasure h
    rw [settle, settle, h1, h2]
    split_ifs with hsettled
    · exact hlast h hsettled
    · have := hle t
      exact ih (by omega) (hstep h hsettled)

/-- What holds at the end: an invariant of the steps, and that the last one settled. -/
theorem settle_rule (inv : σ → Prop) (hle : ∀ s, measure (step s) ≤ measure s)
    (hstep : ∀ s, inv s → inv (step s)) {fuel : ℕ} {s : σ} (hfuel : measure s < fuel) (hs : inv s) :
    ∃ t, inv t ∧ settle step measure fuel s = step t ∧ measure (step t) = measure t :=
  settle_sim (fun s t => s = t ∧ inv t)
    (fun s _ => ∃ t, inv t ∧ s = step t ∧ measure (step t) = measure t) hle
    (fun h => by rw [h.1]; exact ⟨rfl, rfl⟩)
    (fun h _ => ⟨by rw [h.1], hstep _ h.2⟩)
    (fun h hsettled => ⟨_, h.2, by rw [h.1], hsettled⟩) fuel hfuel ⟨rfl, hs⟩

end Settle
