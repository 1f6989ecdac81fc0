import Mathlib.Data.Nat.Find
import Mathlib.Order.Basic

/-!
# Positions that advance

A position that moves up at every step while it is below a bound, and does not jump over
a stop below the bound.

## What is proved

* `exists_reaches` — the position reaches the bound.
* `exists_visits` — it visits a stop between where it starts and the bound.
* `le_mul_div` — a multiple of `d` below `x` is below the greatest one.
-/

namespace Advance

variable {pos : ℕ → ℕ} {bound : ℕ}

theorem le_add_of_advances (h : ∀ k, pos k < bound → pos k < pos (k + 1)) (n : ℕ)
    (hn : ∀ k < n, pos k < bound) : pos 0 + n ≤ pos n := by
  induction n with
  | zero => exact le_rfl
  | succ n ih =>
    have := ih fun k hk => hn k (by omega)
    have := h n (hn n (by omega))
    omega

theorem exists_reaches (h : ∀ k, pos k < bound → pos k < pos (k + 1)) : ∃ k, bound ≤ pos k := by
  by_contra hno
  simp only [not_exists, not_le] at hno
  have := le_add_of_advances h bound fun k _ => hno k
  have := hno bound
  omega

theorem exists_visits (h : ∀ k, pos k < bound → pos k < pos (k + 1)) {stop : ℕ}
    (hjump : ∀ k, pos k < bound → ¬ (pos k < stop ∧ stop < pos (k + 1))) (h0 : pos 0 < stop)
    (hstop : stop < bound) : ∃ k, pos k = stop := by
  have hex : ∃ k, stop ≤ pos k := (exists_reaches h).imp fun k hk => by omega
  obtain ⟨k, hk⟩ : ∃ k, Nat.find hex = k + 1 := by
    refine Nat.exists_eq_succ_of_ne_zero fun hz => ?_
    have := Nat.find_spec hex
    rw [hz] at this
    omega
  have hle : stop ≤ pos (k + 1) := hk ▸ Nat.find_spec hex
  have hlt : pos k < stop := not_le.mp (Nat.find_min hex (by omega))
  exact ⟨k + 1, le_antisymm (not_lt.mp fun hgt => hjump k (by omega) ⟨hlt, hgt⟩) hle⟩

theorem le_mul_div {d x y : ℕ} (hd : d ∣ y) (h : y ≤ x) : y ≤ x / d * d := by
  obtain ⟨k, rfl⟩ := hd
  rcases Nat.eq_zero_or_pos d with rfl | hpos
  · simp
  · rw [Nat.mul_comm d k] at h ⊢
    exact Nat.mul_le_mul_right d ((Nat.le_div_iff_mul_le hpos).mpr h)

end Advance
