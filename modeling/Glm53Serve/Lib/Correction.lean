import Glm53Serve.Lib.HalfEven
import Mathlib.Algebra.Order.Group.Abs
import Mathlib.Algebra.Order.Ring.Abs
import Mathlib.Tactic.FieldSimp
import Mathlib.Tactic.Ring

/-!
# Correction by a rounded quotient

A size grows by about `v` with each of `r` copies and is to come near a target. The size is
measured, and what is missing is divided by an estimate `u` of `v` and rounded. The distance of the
affine law from the target shrinks by the relative error of the estimate, but for the measuring and
the rounding.

## What is proved

* `abs_off_round` — what one correction leaves of the distance.
* `abs_off_max` — a lower bound on the copies that is below the target's brings nothing further off.
* `abs_off_floor` — the distance of the first guess.
* `sub_fixed_le` — a distance that shrinks by a factor and grows by a constant.
-/

namespace Correction

open HalfEven

variable {α : Type*} [Field α] [LinearOrder α] [IsStrictOrderedRing α]

/-- What the affine law `c + v * r` leaves of the target. -/
def off (t c v : α) (r : ℤ) : α := t - c - v * r

variable {t c v u e n : α} {r l : ℤ}

/-- What a measured size leaves of the target, over the estimate, against the law. -/
theorem off_sub_le (hu : 0 < u) (hv : 0 ≤ v) (hn : |n - (c + v * r)| ≤ e) :
    |off t c v r - v * ((t - n) / u)| ≤ |1 - v / u| * |off t c v r| + v / u * e := by
  have hsplit : off t c v r - v * ((t - n) / u)
      = (1 - v / u) * off t c v r + v / u * (n - (c + v * r)) := by
    unfold off
    field_simp
    ring
  rw [hsplit]
  refine (abs_add_le _ _).trans ?_
  rw [abs_mul, abs_mul, abs_of_nonneg (div_nonneg hv hu.le)]
  gcongr

variable [FloorRing α]

/-- One correction by the rounded quotient. -/
theorem abs_off_round (hu : 0 < u) (hv : 0 ≤ v) (hn : |n - (c + v * r)| ≤ e) :
    |off t c v (r + roundEven ((t - n) / u))|
      ≤ |1 - v / u| * |off t c v r| + v / u * e + v / 2 := by
  set q := (t - n) / u with hq
  have hsplit : off t c v (r + roundEven q) = (off t c v r - v * q) + v * (q - roundEven q) := by
    unfold off
    push_cast
    ring
  have hround : |q - roundEven q| ≤ 1 / 2 :=
    abs_le.mpr ⟨by linarith [roundEven_le q], by linarith [le_roundEven q]⟩
  have hlast : |v * (q - roundEven q)| ≤ v / 2 := by
    rw [abs_mul, abs_of_nonneg hv]
    calc v * |q - roundEven q| ≤ v * (1 / 2) := mul_le_mul_of_nonneg_left hround hv
      _ = v / 2 := by ring
  calc |off t c v (r + roundEven q)|
      ≤ |off t c v r - v * q| + |v * (q - roundEven q)| := hsplit ▸ abs_add_le _ _
    _ ≤ |1 - v / u| * |off t c v r| + v / u * e + v / 2 := add_le_add (off_sub_le hu hv hn) hlast

/-- The first guess: the quotient rounded down, from a measured size without copies. -/
theorem abs_off_floor (hu : 0 < u) (hv : 0 ≤ v) (hn : |n - c| ≤ e) :
    |off t c v ⌊(t - n) / u⌋| ≤ |1 - v / u| * |t - c| + v / u * e + v := by
  set q := (t - n) / u with hq
  have hsplit : off t c v ⌊q⌋ = (off t c v 0 - v * q) + v * (q - ⌊q⌋) := by
    unfold off
    push_cast
    ring
  have hfloor : |q - ⌊q⌋| ≤ 1 :=
    abs_le.mpr ⟨by linarith [Int.floor_le q], by linarith [Int.lt_floor_add_one q]⟩
  have hlast : |v * (q - ⌊q⌋)| ≤ v := by
    rw [abs_mul, abs_of_nonneg hv]
    calc v * |q - ⌊q⌋| ≤ v * 1 := mul_le_mul_of_nonneg_left hfloor hv
      _ = v := mul_one v
  have hzero : off t c v 0 = t - c := by simp [off]
  have hn₀ : |n - (c + v * (0 : ℤ))| ≤ e := by simpa using hn
  calc |off t c v ⌊q⌋|
      ≤ |off t c v 0 - v * q| + |v * (q - ⌊q⌋)| := hsplit ▸ abs_add_le _ _
    _ ≤ |1 - v / u| * |off t c v 0| + v / u * e + v := add_le_add (off_sub_le hu hv hn₀) hlast
    _ = |1 - v / u| * |t - c| + v / u * e + v := by rw [hzero]

omit [FloorRing α] in
/-- A lower bound that does not reach the target moves the count towards it. -/
theorem abs_off_max (hv : 0 ≤ v) (hlo : c + v * l ≤ t) : |off t c v (max l r)| ≤ |off t c v r| := by
  rcases le_total l r with h | h
  · rw [max_eq_right h]
  · rw [max_eq_left h]
    have hcast : (r : α) ≤ l := Int.cast_le.mpr h
    have hmul : v * r ≤ v * l := mul_le_mul_of_nonneg_left hcast hv
    rw [abs_of_nonneg, abs_of_nonneg]
    · unfold off
      linarith
    · unfold off
      linarith
    · unfold off
      linarith

omit [FloorRing α] in
/-- A distance that shrinks to its `q`-th part and grows by `k`: what it has above `k * q / (q - 1)`
shrinks. -/
theorem sub_fixed_le {d d' q k : α} (hq : 1 < q) (h : d' ≤ d / q + k) :
    d' - k * q / (q - 1) ≤ (d - k * q / (q - 1)) / q := by
  have hpos : 0 < q := one_pos.trans hq
  have hne : q - 1 ≠ 0 := (sub_pos.mpr hq).ne'
  have hfixed : k * q / (q - 1) / q + k = k * q / (q - 1) := by
    field_simp
    ring
  calc d' - k * q / (q - 1) ≤ d / q - k * q / (q - 1) / q := by linarith
    _ = (d - k * q / (q - 1)) / q := (sub_div ..).symm

end Correction
