import Glm53Serve.Py.Text
import Mathlib.Data.Int.DivMod
import Mathlib.Data.Nat.Digits.Defs

/-!
# Numbers in bash

The shell reads a string of digits in two ways: the operands of `[ a -gt b ]` are decimal,
and fail beyond 63 bits; in `$((a + 1))` a leading zero makes the number octal, and the
arithmetic wraps.

## What is proved

* `testNumber_digits` — a string of digits as an operand of `[ ]`.
* `arithNumber_le_eight` — up to eight the two readings agree, but on an eight with a zero
  before it.
-/

namespace Sh

open Py

/-- A string of digits that is not empty: it passes `case "$x" in ''|*[!0-9]*)`. -/
def isDigits (t : Text) : Bool := t ≠ [] && t.all Char.isDigit

/-- The digits of `t` in the base `b`, most significant first. -/
def value (b : ℕ) (t : Text) : ℕ := t.foldl (fun n c => n * b + (c.toNat - '0'.toNat)) 0

/-- The blanks that `strtoimax` skips. -/
def isBlank (c : Char) : Bool := c.toNat = 32 || (9 ≤ c.toNat && c.toNat ≤ 13)

/-- The sign of a number, whether it is minus, and the rest. -/
def sign : Text → Bool × Text
  | '-' :: t => (true, t)
  | '+' :: t => (false, t)
  | t => (false, t)

/-- An operand of `[ ]`; `none` is "integer expression expected". -/
def testNumber (t : Text) : Option ℤ :=
  let (neg, t) := sign (t.dropWhile isBlank)
  let digits := t.takeWhile Char.isDigit
  let rest := t.dropWhile Char.isDigit
  let n : ℤ := if neg then -(value 10 digits) else value 10 digits
  if digits = [] ∨ rest.any (fun c => c ≠ ' ' ∧ c ≠ '\t') then none
  else if n < -2 ^ 63 ∨ 2 ^ 63 ≤ n then none
  else some n

/-- A number as an operand of `[ ]`. -/
def operand (n : ℕ) : Option ℤ := if 2 ^ 63 ≤ n then none else some n

/-- `[ a -ge b ]`; it fails where an operand is no number. -/
def atLeast (a b : Option ℤ) : Bool :=
  match a, b with
  | some m, some n => n ≤ m
  | _, _ => false

/-- `[ a -gt b ]`. -/
def greater (a b : Option ℤ) : Bool :=
  match a, b with
  | some m, some n => n < m
  | _, _ => false

/-- `[ a -lt b ]`. -/
def less (a b : Option ℤ) : Bool := greater b a

/-- A number of 64 bits. -/
def wrap (n : ℤ) : ℤ := Int.bmod n (2 ^ 64)

/-- A string of digits in `$(( ))`; `none` is "value too great for base". -/
def arithNumber (t : Text) : Option ℤ :=
  match t with
  | '0' :: _ => if t.all (·.toNat < '8'.toNat) then some (wrap (value 8 t)) else none
  | _ => some (wrap (value 10 t))

theorem isDigits_iff {t : Text} : isDigits t = true ↔ t ≠ [] ∧ ∀ c ∈ t, c.isDigit = true := by
  simp [isDigits]

theorem value_append (b : ℕ) (t u : Text) :
    value b (t ++ u) = u.foldl (fun n c => n * b + (c.toNat - '0'.toNat)) (value b t) :=
  List.foldl_append

theorem value_concat (b : ℕ) (t : Text) (c : Char) :
    value b (t ++ [c]) = value b t * b + (c.toNat - '0'.toNat) := by
  rw [value_append]
  rfl

theorem isBlank_of_isDigit {c : Char} (h : c.isDigit = true) : isBlank c = false := by
  have hd := Char.isDigit_iff_toNat.mp h
  have h0 : '0'.toNat = 48 := rfl
  simp only [isBlank, Bool.or_eq_false_iff, Bool.and_eq_false_iff, decide_eq_false_iff_not]
  omega

theorem sign_of_isDigit {c : Char} (h : c.isDigit = true) (t : Text) :
    sign (c :: t) = (false, c :: t) := by
  rw [sign]
  · intro u hu
    rw [(List.cons.inj hu).1] at h
    cases h
  · intro u hu
    rw [(List.cons.inj hu).1] at h
    cases h

/-- A string of digits as an operand of `[ ]`. -/
theorem testNumber_digits {t : Text} (h : isDigits t = true) :
    testNumber t = if 2 ^ 63 ≤ value 10 t then none else some (value 10 t : ℤ) := by
  obtain ⟨hne, hall⟩ := isDigits_iff.mp h
  obtain ⟨c, t, rfl⟩ := List.exists_cons_of_ne_nil hne
  have hc := hall c List.mem_cons_self
  have htake : (c :: t).takeWhile Char.isDigit = c :: t := List.takeWhile_eq_self_iff.mpr hall
  have hdrop : (c :: t).dropWhile Char.isDigit = [] := List.dropWhile_eq_nil_iff.mpr hall
  rw [testNumber, List.dropWhile_cons_of_neg (by simp [isBlank_of_isDigit hc]), sign_of_isDigit hc]
  simp only [htake, hdrop, hne, List.any_nil, Bool.false_eq_true, or_self, if_false]
  split_ifs <;> first | rfl | omega

theorem eq_of_digit {c d : Char} (hc : c.isDigit = true) (hd : d.isDigit = true)
    (h : c.toNat - '0'.toNat = d.toNat - '0'.toNat) : c = d := by
  have hc' := (Char.isDigit_iff_toNat.mp hc).1
  have hd' := (Char.isDigit_iff_toNat.mp hd).1
  exact Char.toNat_inj.mp (by omega)

/-- Digits of the value zero are zeros. -/
theorem eq_zeros_of_value {t : Text} (hall : ∀ c ∈ t, c.isDigit = true) (h : value 10 t = 0) :
    t = List.replicate t.length '0' := by
  induction t using List.reverseRecOn with
  | nil => rfl
  | append_singleton t c ih =>
    rw [value_concat] at h
    have hc : c = '0' := eq_of_digit (hall c (by simp)) (by decide) (by omega)
    have ht := ih (fun d hd => hall d (by simp [hd])) (by omega)
    rw [List.length_append, List.length_singleton, List.replicate_succ', ← ht, hc]

theorem value_zeros (b k : ℕ) : value b (List.replicate k '0') = 0 := by
  induction k with
  | zero => rfl
  | succ k ih =>
    rw [List.replicate_succ', value_concat, ih, Nat.zero_mul]
    rfl

/-- Digits of a value below ten are zeros before one digit. -/
theorem eq_zeros_digit {t : Text} (h : isDigits t = true) (hlt : value 10 t < 10) :
    ∃ k c, t = List.replicate k '0' ++ [c] ∧ c.isDigit = true ∧
      c.toNat - '0'.toNat = value 10 t := by
  obtain ⟨hne, hall⟩ := isDigits_iff.mp h
  obtain ⟨u, c, rfl⟩ := (List.eq_nil_or_concat t).resolve_left hne
  rw [List.concat_eq_append] at *
  rw [value_concat] at hlt
  have hu : value 10 u = 0 := by omega
  refine ⟨u.length, c, ?_, hall c (by simp), ?_⟩
  · rw [← eq_zeros_of_value (fun d hd => hall d (by simp [hd])) hu]
  · rw [value_concat, hu, Nat.zero_mul, Nat.zero_add]

theorem wrap_of_lt {n : ℕ} (h : n < 2 ^ 63) : wrap n = n := by
  rw [wrap, Int.bmod_eq_of_le] <;> omega

/-- A number whose first digit is not zero. -/
theorem arithNumber_of_head {t : Text} (h : t.head? ≠ some '0') :
    arithNumber t = some (wrap (value 10 t)) := by
  rw [arithNumber]
  rintro u rfl
  exact h rfl

/-- Up to eight, `$(( ))` reads a string of digits as `[ ]` does, but refuses an eight with a zero
before it. -/
theorem arithNumber_le_eight {t : Text} (h : isDigits t = true) (hle : value 10 t ≤ 8) :
    arithNumber t =
      if t.head? = some '0' ∧ value 10 t = 8 then none else some (value 10 t : ℤ) := by
  by_cases hhead : t.head? = some '0'
  · obtain ⟨k, c, rfl, hc, hv⟩ := eq_zeros_digit h (by omega)
    have hval : value 8 (List.replicate k '0' ++ [c]) = c.toNat - '0'.toNat := by
      rw [value_concat, value_zeros, Nat.zero_mul, Nat.zero_add]
    have hlt : (List.replicate k '0' ++ [c]).all (·.toNat < '8'.toNat) = true ↔
        c.toNat - '0'.toNat < 8 := by
      have hd := (Char.isDigit_iff_toNat.mp hc).1
      have h0 : '0'.toNat = 48 := rfl
      have h8 : '8'.toNat = 56 := rfl
      simp only [List.all_append, List.all_replicate, List.all_cons, List.all_nil, Bool.and_true,
        Bool.and_eq_true, decide_eq_true_eq, h0, h8]
      split_ifs <;> simp <;> omega
    obtain ⟨u, hu⟩ : ∃ u, List.replicate k '0' ++ [c] = '0' :: u := List.head?_eq_some_iff.mp hhead
    rw [hu, arithNumber, ← hu, hval, hv]
    rw [hv] at hlt
    by_cases h8 : value 10 (List.replicate k '0' ++ [c]) = 8
    · rw [if_neg (mt hlt.mp (by omega)), if_pos ⟨hhead, h8⟩]
    · rw [if_pos (hlt.mpr (by omega)), if_neg fun hb => h8 hb.2, wrap_of_lt (by omega)]
  · rw [arithNumber_of_head hhead, wrap_of_lt (by omega), if_neg fun hb => hhead hb.1]

end Sh
