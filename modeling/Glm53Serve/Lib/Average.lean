import Mathlib.Algebra.Order.Archimedean.Basic
import Mathlib.Tactic.Linarith
import Mathlib.Tactic.Ring

/-!
# Exponential moving averages

An average that moves towards each new sample by the fraction `a` of the distance. It is
monotone in the average and in the sample, and under samples that reach a target its gap
below the target shrinks geometrically.

## What is proved

* `move_mono` — a higher average and a higher sample give a higher average.
* `gap_move` — a sample at the target or above shrinks the gap by `1 - a`.
* `exists_gap_lt` — after enough such samples the gap is below any bound.
-/

namespace Average

variable {K : Type*} [Field K] [LinearOrder K] [IsStrictOrderedRing K] {a : K}

/-- The average `e` after the sample `x`. -/
def move (a x e : K) : K := x * a + e * (1 - a)

theorem move_mono (h₀ : 0 ≤ a) (h₁ : a ≤ 1) {x x' e e' : K} (hx : x ≤ x')
    (he : e ≤ e') : move a x e ≤ move a x' e' :=
  add_le_add (mul_le_mul_of_nonneg_right hx h₀)
    (mul_le_mul_of_nonneg_right he (sub_nonneg.2 h₁))

/-- A sample at the target or above shrinks the gap below the target by `1 - a`. -/
theorem gap_move (h₀ : 0 ≤ a) (h₁ : a ≤ 1) {t x e g : K} (hx : t ≤ x) (he : t - g ≤ e) :
    t - g * (1 - a) ≤ move a x e := by
  calc t - g * (1 - a) = move a t (t - g) := by rw [move]; ring
    _ ≤ move a x e := move_mono h₀ h₁ hx he

/-- Samples at the target close the gap to any bound. -/
theorem exists_gap_lt [Archimedean K] (h₀ : 0 < a) (h₁ : a ≤ 1) {g ε : K} (hg : 0 ≤ g)
    (hε : 0 < ε) :
    ∃ n : ℕ, ∀ m ≥ n, g * (1 - a) ^ m < ε := by
  have hb : 0 ≤ 1 - a := sub_nonneg.2 h₁
  obtain ⟨n, hn⟩ := exists_pow_lt_of_lt_one (div_pos hε (by linarith : 0 < g + 1))
    (by linarith : 1 - a < 1)
  refine ⟨n, fun m hm => ?_⟩
  have hpow : (1 - a) ^ m ≤ (1 - a) ^ n := pow_le_pow_of_le_one hb (by linarith) hm
  calc g * (1 - a) ^ m ≤ (g + 1) * (1 - a) ^ n :=
        mul_le_mul (by linarith) hpow (pow_nonneg hb m) (by linarith)
    _ < ε := by
        rw [lt_div_iff₀ (by linarith)] at hn
        linarith [mul_comm ((1 - a) ^ n) (g + 1)]

end Average
