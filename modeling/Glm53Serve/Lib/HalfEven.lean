import Mathlib.Algebra.Order.Floor.Ring
import Mathlib.Algebra.Ring.Int.Parity
import Mathlib.Tactic.Linarith
import Mathlib.Tactic.NormNum

/-!
# Rounding to the nearest integer

Ties go to the even neighbour, over any ordered field with a floor. A rounded number is at most
a half away, so rounding keeps the order, and keeps it strict between numbers that are more
than one apart; at a distance of exactly one it may not (a half and three halves, say, go to
the numbers zero and two, and three halves and five halves both to two).

## What is proved

* `roundEven_le`, `le_roundEven` — the distance.
* `roundEven_intCast`, `roundEven_mono`, `roundEven_lt` — integers, and the order.
* `roundTo_mono`, `roundTo_intCast` — the same to some decimal digits.
-/

namespace HalfEven

variable {α : Type*} [Field α] [LinearOrder α] [IsStrictOrderedRing α]

theorem scale_pos (digits : ℕ) : (0 : α) < (10 ^ digits : ℕ) :=
  Nat.cast_pos.mpr (Nat.pow_pos (by decide))

variable [FloorRing α]

/-- The nearer one of the floor and the next integer, the even one halfway. -/
def roundEven (x : α) : ℤ :=
  if Int.fract x < 1 - Int.fract x then ⌊x⌋
  else if 1 - Int.fract x < Int.fract x then ⌊x⌋ + 1
  else if Even ⌊x⌋ then ⌊x⌋ else ⌊x⌋ + 1

/-- A number goes to its floor, at most a half below it, or to the next integer, at most a half
above it. -/
theorem roundEven_cases (x : α) : (roundEven x = ⌊x⌋ ∧ Int.fract x ≤ 1 / 2) ∨
    (roundEven x = ⌊x⌋ + 1 ∧ 1 / 2 ≤ Int.fract x) := by
  unfold roundEven
  split_ifs with hlow hhigh heven
  · exact .inl ⟨rfl, by linarith⟩
  · exact .inr ⟨rfl, by linarith⟩
  · exact .inl ⟨rfl, by linarith⟩
  · exact .inr ⟨rfl, by linarith⟩

theorem roundEven_le (x : α) : (roundEven x : α) ≤ x + 1 / 2 := by
  have hsum := Int.floor_add_fract x
  have hnonneg := Int.fract_nonneg x
  rcases roundEven_cases x with ⟨h, hfract⟩ | ⟨h, hfract⟩
  · rw [h]
    linarith
  · rw [h, Int.cast_add, Int.cast_one]
    linarith

theorem le_roundEven (x : α) : x - 1 / 2 ≤ roundEven x := by
  have hsum := Int.floor_add_fract x
  have hlt := Int.fract_lt_one x
  rcases roundEven_cases x with ⟨h, hfract⟩ | ⟨h, hfract⟩
  · rw [h]
    linarith
  · rw [h, Int.cast_add, Int.cast_one]
    linarith

theorem roundEven_intCast (n : ℤ) : roundEven (n : α) = n := by
  rw [roundEven, Int.fract_intCast, if_pos (by norm_num), Int.floor_intCast]

/-- More than one apart, the order is strict. -/
theorem roundEven_lt {x y : α} (h : x + 1 < y) : roundEven x < roundEven y := by
  have hx := roundEven_le x
  have hy := le_roundEven y
  have hlt : (roundEven x : α) < roundEven y := by linarith
  exact_mod_cast hlt

theorem roundEven_mono {x y : α} (h : x ≤ y) : roundEven x ≤ roundEven y := by
  have hfloor := Int.floor_mono h
  rcases hfloor.lt_or_eq with hlt | heq
  · -- the floors differ: the next integer after that of `x` is at most that of `y`
    rcases roundEven_cases x with ⟨hx, -⟩ | ⟨hx, -⟩ <;>
      rcases roundEven_cases y with ⟨hy, -⟩ | ⟨hy, -⟩ <;> omega
  · -- one floor: the fractions decide
    have hfract : Int.fract x ≤ Int.fract y := by
      rw [Int.fract, Int.fract, heq]
      linarith
    unfold roundEven
    rw [heq]
    split_ifs <;> first | omega | linarith

/-- Rounding to some decimal digits. -/
def roundTo (digits : ℕ) (x : α) : α := roundEven (x * (10 ^ digits : ℕ)) / (10 ^ digits : ℕ)

theorem roundTo_mono (digits : ℕ) {x y : α} (h : x ≤ y) : roundTo digits x ≤ roundTo digits y := by
  have hround : roundEven (x * (10 ^ digits : ℕ)) ≤ roundEven (y * (10 ^ digits : ℕ)) :=
    roundEven_mono (mul_le_mul_of_nonneg_right h (scale_pos digits).le)
  unfold roundTo
  exact div_le_div_of_nonneg_right (Int.cast_le.mpr hround) (scale_pos digits).le

theorem roundTo_intCast (digits : ℕ) (n : ℤ) : roundTo digits (n : α) = n := by
  have hcast : (n : α) * (10 ^ digits : ℕ) = ((n * (10 ^ digits : ℕ) : ℤ) : α) := by
    rw [Int.cast_mul, Int.cast_natCast]
  rw [roundTo, hcast, roundEven_intCast, Int.cast_mul, Int.cast_natCast, mul_div_assoc,
    div_self (scale_pos digits).ne', mul_one]

end HalfEven
