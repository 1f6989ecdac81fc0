import Glm53Serve.Lib.Environ
import Glm53Serve.Sh.Number
import Mathlib

/-!
# The integers of the launcher

`_glm53_canonical_positive_int` of `start.sh` checks an integer variable against a maximum and
exports it without leading zeros. A number with more digits than the maximum is refused before
`[` has to read it.

## The model

Variables are texts, as in the shell, and lengths are naturals. Besides the outcome and the
variables a call returns the operands of the integer comparisons that it evaluates.

## What is proved

* `canonical_digits` — what is left of a string of digits without its zeros is the decimal of
  its value.
* `canonicalPositiveInt_iff` — for which strings a call does what it is for.
-/

namespace Glm53Serve.Launcher

open Py

variable {κ : Type*} [DecidableEq κ]

/-- The configuration variables, and which of them are exported. -/
structure Shell (κ : Type*) where
  value : Environ.Env κ Char
  exported : κ → Bool

/-- `printf -v "$name" '%s' "$text"; export "$name"`. -/
def Shell.export (shell : Shell κ) (name : κ) (text : Text) : Shell κ :=
  ⟨Environ.set shell.value name text, Function.update shell.exported name true⟩

/-- The messages of `_glm53_canonical_positive_int`, each with status 2. -/
inductive IntError where
  /-- "$name must be a positive base-10 integer (got: $value)". -/
  | notInteger (value : Text)
  /-- "$name must be between 1 and $maximum (got: $value)". -/
  | range (maximum value : Text)
  deriving DecidableEq

/-- The end of a call. -/
structure Checked (κ : Type*) where
  outcome : Except IntError Unit
  shell : Shell κ
  /-- The operands of `[ -gt ]`, but for the lengths. -/
  compared : List (Text × Text)

/-- `while [ "${canonical#0}" != "$canonical" ]; do canonical="${canonical#0}"; done`. -/
def stripZeros : Text → Text
  | '0' :: t => stripZeros t
  | t => t

/-- The loop and `[ -n "$canonical" ] || canonical=0`. -/
def canonical (value : Text) : Text := if stripZeros value = [] then ['0'] else stripZeros value

/-- `_glm53_canonical_positive_int name value maximum`. -/
def canonicalPositiveInt (name : κ) (value maximum : Text) (shell : Shell κ) : Checked κ :=
  if Sh.isDigits value = false then ⟨.error (.notInteger value), shell, []⟩
  else if canonical value = ['0'] ∨ maximum.length < (canonical value).length then
    ⟨.error (.range maximum value), shell, []⟩
  -- a comparison that fails with status 2 is not true
  else if Sh.greater (Sh.testNumber (canonical value)) (Sh.testNumber maximum) then
    ⟨.error (.range maximum value), shell, [(canonical value, maximum)]⟩
  else ⟨.ok (), shell.export name (canonical value), [(canonical value, maximum)]⟩

/-- What a call is for: to let the numbers between 1 and the maximum pass, to export their decimal,
to compare numbers of 64 bits only, and else to leave the variables alone. -/
structure Checks (name : κ) (value maximum : Text) (shell : Shell κ) : Prop where
  ok_iff : (canonicalPositiveInt name value maximum shell).outcome = .ok () ↔
    Sh.isDigits value = true ∧ 1 ≤ Sh.value 10 value ∧ Sh.value 10 value ≤ Sh.value 10 maximum
  exports : (canonicalPositiveInt name value maximum shell).outcome = .ok () →
    (canonicalPositiveInt name value maximum shell).shell =
      shell.export name (Nat.toDigits 10 (Sh.value 10 value))
  fits : ∀ operands ∈ (canonicalPositiveInt name value maximum shell).compared,
    Sh.testNumber operands.1 ≠ none ∧ Sh.testNumber operands.2 ≠ none
  unchanged : (canonicalPositiveInt name value maximum shell).outcome ≠ .ok () →
    (canonicalPositiveInt name value maximum shell).shell = shell

/-! ### Decimals -/

theorem value_zero_cons (t : Text) : Sh.value 10 ('0' :: t) = Sh.value 10 t := rfl

theorem stripZeros_spec (t : Text) : Sh.value 10 (stripZeros t) = Sh.value 10 t ∧
    (stripZeros t).head? ≠ some '0' ∧ stripZeros t <:+ t := by
  induction t with
  | nil => exact ⟨rfl, nofun, List.suffix_rfl⟩
  | cons c t ih =>
    by_cases hc : c = '0'
    · subst hc
      rw [stripZeros, value_zero_cons]
      exact ⟨ih.1, ih.2.1, ih.2.2.trans (List.suffix_cons _ _)⟩
    · have hstay : stripZeros (c :: t) = c :: t := by
        rw [stripZeros]
        exact fun u hu => hc (List.cons_eq_cons.mp hu).1
      rw [hstay]
      exact ⟨rfl, fun h => hc (Option.some.inj h), List.suffix_rfl⟩

theorem digitChar_value {c : Char} (h : c.isDigit = true) :
    c.toNat - '0'.toNat < 10 ∧ Nat.digitChar (c.toNat - '0'.toNat) = c := by
  have hd := (Char.isDigit_iff_toNat.mp h)
  have h0 : '0'.toNat = 48 := rfl
  have h9 : '9'.toNat = 57 := rfl
  have hlt : c.toNat - '0'.toNat < 10 := by omega
  refine ⟨hlt, Char.toNat_inj.mp ?_⟩
  rw [Nat.toNat_digitChar_of_lt_ten hlt]
  omega

/-- A string of digits that does not begin with a zero is the decimal of its value. -/
theorem toDigits_value {t : Text} (h : Sh.isDigits t = true) (hhead : t.head? ≠ some '0') :
    Nat.toDigits 10 (Sh.value 10 t) = t ∧ 1 ≤ Sh.value 10 t := by
  induction t using List.reverseRecOn with
  | nil => cases h
  | append_singleton u c ih =>
    obtain ⟨-, hall⟩ := Sh.isDigits_iff.mp h
    obtain ⟨hlt, hchar⟩ := digitChar_value (hall c (by simp))
    rw [Sh.value_concat]
    rcases eq_or_ne u [] with rfl | hu
    · have hzero : Sh.value 10 [] = 0 := rfl
      rw [hzero, Nat.zero_mul, Nat.zero_add, Nat.toDigits_of_lt_base hlt, hchar]
      refine ⟨rfl, Nat.one_le_iff_ne_zero.mpr fun h0 => hhead ?_⟩
      rw [← hchar, h0]
      rfl
    · have hdigits : Sh.isDigits u = true :=
        Sh.isDigits_iff.mpr ⟨hu, fun d hd => hall d (by simp [hd])⟩
      obtain ⟨heq, hpos⟩ := ih hdigits (by rwa [List.head?_append_of_ne_nil u hu] at hhead)
      have happend := Nat.toDigits_append_toDigits (by decide : 1 < 10) hpos hlt
      rw [heq, Nat.toDigits_of_lt_base hlt, hchar, Nat.mul_comm] at happend
      exact ⟨happend.symm, by omega⟩

/-- What is left without the zeros is the decimal of the value. -/
theorem canonical_digits {value : Text} (h : Sh.isDigits value = true) :
    canonical value = Nat.toDigits 10 (Sh.value 10 value) := by
  obtain ⟨hvalue, hhead, hsuffix⟩ := stripZeros_spec value
  rw [canonical]
  split_ifs with hnil
  · rw [← hvalue, hnil]
    rfl
  · have hdigits : Sh.isDigits (stripZeros value) = true :=
      Sh.isDigits_iff.mpr ⟨hnil, fun c hc => (Sh.isDigits_iff.mp h).2 c (hsuffix.mem hc)⟩
    rw [← hvalue, (toDigits_value hdigits hhead).1]

theorem value_toDigits (n : ℕ) : Sh.value 10 (Nat.toDigits 10 n) = n := by
  have heq := Nat.ofDigitChars_ten_toDigits (n := n)
  rw [Nat.ofDigitChars_eq_foldl] at heq
  simp only [Nat.mul_comm 10] at heq
  exact heq

/-- A decimal as an operand of `[ ]`. -/
theorem testNumber_toDigits (n : ℕ) :
    Sh.testNumber (Nat.toDigits 10 n) = if 2 ^ 63 ≤ n then none else some (n : ℤ) := by
  have hdigits : Sh.isDigits (Nat.toDigits 10 n) = true :=
    Sh.isDigits_iff.mpr ⟨List.ne_nil_of_length_pos Nat.length_toDigits_pos,
      fun c hc => Nat.isDigit_of_mem_toDigits (by decide) (by decide) hc⟩
  rw [Sh.testNumber_digits hdigits, value_toDigits]

/-! ### The call -/

variable {name : κ} {value maximum : Text} {shell : Shell κ}

/-- A call on a string of digits, by its value. -/
theorem canonicalPositiveInt_digits (hdigits : Sh.isDigits value = true)
    (hmax : Sh.isDigits maximum = true) (hfits : Sh.value 10 maximum < 2 ^ 63) :
    canonicalPositiveInt name value maximum shell =
      let decimal := Nat.toDigits 10 (Sh.value 10 value)
      if Sh.value 10 value = 0 ∨ 10 ^ maximum.length ≤ Sh.value 10 value then
        ⟨.error (.range maximum value), shell, []⟩
      else if Sh.value 10 value < 2 ^ 63 ∧ Sh.value 10 maximum < Sh.value 10 value then
        ⟨.error (.range maximum value), shell, [(decimal, maximum)]⟩
      else ⟨.ok (), shell.export name decimal, [(decimal, maximum)]⟩ := by
  have hpos : 0 < maximum.length := List.length_pos_of_ne_nil (Sh.isDigits_iff.mp hmax).1
  have hzero : Nat.toDigits 10 (Sh.value 10 value) = ['0'] ↔ Sh.value 10 value = 0 := by
    constructor
    · intro h
      rw [← value_toDigits (Sh.value 10 value), h]
      rfl
    · intro h
      rw [h]
      rfl
  have hlonger : maximum.length < (Nat.toDigits 10 (Sh.value 10 value)).length ↔
      10 ^ maximum.length ≤ Sh.value 10 value := by
    rw [← Nat.not_le, Nat.length_toDigits_le_iff (by decide) hpos, Nat.not_lt]
  have hgreater : Sh.greater (Sh.testNumber (Nat.toDigits 10 (Sh.value 10 value)))
    (Sh.testNumber maximum) =
      true ↔ Sh.value 10 value < 2 ^ 63 ∧ Sh.value 10 maximum < Sh.value 10 value := by
    rw [testNumber_toDigits, Sh.testNumber_digits hmax, if_neg (Nat.not_le.mpr hfits)]
    split_ifs with h
    · exact iff_of_false Bool.false_ne_true fun hand => by omega
    · simp only [Sh.greater, decide_eq_true_eq, Nat.cast_lt]
      omega
  rw [canonicalPositiveInt, if_neg (by simp [hdigits]), canonical_digits hdigits]
  simp only [hzero, hlonger, hgreater]

/-- A maximum has as many digits as its value. -/
theorem value_lt_pow (hmax : Sh.isDigits maximum = true) (hhead : maximum.head? ≠ some '0') :
    Sh.value 10 maximum < 10 ^ maximum.length := by
  have hpos : 0 < maximum.length := List.length_pos_of_ne_nil (Sh.isDigits_iff.mp hmax).1
  rw [← Nat.length_toDigits_le_iff (by decide) hpos, (toDigits_value hmax hhead).1]

/-- A number below a power of ten has that many digits at most. -/
theorem length_le_of_value_lt (hmax : Sh.isDigits maximum = true) (hhead : maximum.head? ≠ some '0')
    {k : ℕ} (h : Sh.value 10 maximum < 10 ^ (k + 1)) : maximum.length ≤ k + 1 := by
  rw [← (toDigits_value hmax hhead).1]
  exact (Nat.length_toDigits_le_iff (by decide) k.succ_pos).mpr h

/-- A call does what it is for, but for the strings that denote a number of 64 bits or more with no
more digits than the maximum. -/
theorem checks_iff (name : κ) (value : Text) (shell : Shell κ) {maximum : Text}
    (hmax : Sh.isDigits maximum = true) (hhead : maximum.head? ≠ some '0')
    (hfits : Sh.value 10 maximum < 2 ^ 63) : Checks name value maximum shell ↔
      ¬(Sh.isDigits value = true ∧ 2 ^ 63 ≤ Sh.value 10 value ∧
        Sh.value 10 value < 10 ^ maximum.length) := by
  by_cases hdigits : Sh.isDigits value = true
  · have hcall : canonicalPositiveInt name value maximum shell = _ :=
      canonicalPositiveInt_digits hdigits hmax hfits
    have hlt := value_lt_pow hmax hhead
    simp only at hcall
    have hfit : Sh.value 10 value < 2 ^ 63 →
        ∀ operands ∈ [(Nat.toDigits 10 (Sh.value 10 value), maximum)],
          Sh.testNumber operands.1 ≠ none ∧ Sh.testNumber operands.2 ≠ none := by
      intro hsmall operands hmem
      obtain rfl := List.mem_singleton.mp hmem
      rw [testNumber_toDigits, Sh.testNumber_digits hmax, if_neg (by omega), if_neg (by omega)]
      exact ⟨Option.some_ne_none _, Option.some_ne_none _⟩
    constructor
    · -- such a number passes, and it is above the maximum
      rintro ⟨hok, -, -, -⟩ ⟨-, hlarge, hshort⟩
      rw [hcall, if_neg (by omega), if_neg (by omega)] at hok
      have := (hok.mp rfl).2.2
      omega
    · intro hno
      have hsmall : Sh.value 10 value < 10 ^ maximum.length → Sh.value 10 value < 2 ^ 63 := by
        intro hshort
        by_contra hlarge
        exact hno ⟨hdigits, by omega, hshort⟩
      split_ifs at hcall with hrange hgreater
      · -- zero, or more digits than the maximum: nothing is compared
        refine ⟨?_, by simp [hcall], by simp [hcall], by simp [hcall]⟩
        simp only [hcall, reduceCtorEq, false_iff, not_and]
        omega
      · refine ⟨?_, by simp [hcall], ?_, by simp [hcall]⟩
        · simp only [hcall, reduceCtorEq, false_iff, not_and]
          omega
        · rw [hcall]
          exact hfit hgreater.1
      · have hsmall' : Sh.value 10 value < 2 ^ 63 := hsmall (by omega)
        refine ⟨?_, by simp [hcall], ?_, by simp [hcall]⟩
        · simp only [hcall, true_iff]
          exact ⟨hdigits, by omega, by omega⟩
        · rw [hcall]
          exact hfit hsmall'
  · have hcall : canonicalPositiveInt name value maximum shell =
        ⟨.error (.notInteger value), shell, []⟩ := by
      rw [canonicalPositiveInt, if_pos (by simpa using hdigits)]
    refine iff_of_true ⟨?_, ?_, ?_, ?_⟩ fun h => hdigits h.1
    · simp [hcall, hdigits]
    · simp [hcall]
    · simp [hcall]
    · simp [hcall]

/-- **The integer check** does what it is for, but for the strings that denote a number of 64 bits
or more with no more digits than the maximum. Only a maximum of 19 digits leaves such strings. -/
theorem canonicalPositiveInt_iff (name : κ) (value : Text) (shell : Shell κ) {maximum : Text}
    (hmax : Sh.isDigits maximum = true) (hhead : maximum.head? ≠ some '0')
    (hfits : Sh.value 10 maximum < 2 ^ 63) :
    (Checks name value maximum shell ↔
      ¬(Sh.isDigits value = true ∧ 2 ^ 63 ≤ Sh.value 10 value ∧
        Sh.value 10 value < 10 ^ maximum.length)) ∧
      (maximum.length ≠ 19 → Checks name value maximum shell) := by
  have hiff := checks_iff name value shell hmax hhead hfits
  refine ⟨hiff, fun hlength => hiff.mpr ?_⟩
  rintro ⟨-, hlarge, hshort⟩
  have hle : maximum.length ≤ 19 := length_le_of_value_lt hmax hhead (by omega)
  have hpow : 10 ^ maximum.length ≤ 10 ^ 18 := Nat.pow_le_pow_right (by decide) (by omega)
  omega

/-- `MAX_NUM_SEQS=0128` passes as `128`. -/
theorem canonicalPositiveInt_leading_zero : Checks () ['0', '1', '2', '8'] ['4', '0', '9', '6']
    ⟨fun _ => none, fun _ => false⟩ :=
  (canonicalPositiveInt_iff () ['0', '1', '2', '8'] ⟨fun _ => none, fun _ => false⟩
    (by decide) (by decide)
    (by decide)).1.mpr (by decide)

/-- With the maximum of 63 bits, `9999999999999999999` passes. -/
theorem canonicalPositiveInt_oversized :
    let maximum : Text := Nat.toDigits 10 (2 ^ 63 - 1)
    Sh.isDigits maximum = true ∧ maximum.head? ≠ some '0' ∧ Sh.value 10 maximum = 2 ^ 63 - 1 ∧
      ¬ Checks () (List.replicate 19 '9') maximum ⟨fun _ => none, fun _ => false⟩ := by
  refine ⟨by decide, by decide, by decide, fun h => ?_⟩
  have hle := (h.ok_iff.mp (by decide)).2.2
  revert hle
  decide

end Glm53Serve.Launcher
