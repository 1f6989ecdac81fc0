import Glm53Serve.Sh.Number
import Mathlib.Data.List.Infix

/-!
# The list check of the launcher

`_glm53_validate_int_list` of `start.sh` rules out what is no list by patterns and then tests
the items with `[`, which fails with status 2 on a number of more than 63 bits; the `if` takes
that for "not out of range".

## The model

The value is a text, as in the shell, and the maximum a natural.

## What is proved

* `refused_iff` — the patterns leave the lists of strings of digits.
* `validateIntList_ok_iff` — which strings the check lets pass.
* `validateIntList_iff` — for which strings these are the lists of numbers in the range.
-/

namespace Glm53Serve.Launcher

open Py

/-! ### `_glm53_validate_int_list` -/

/-- `[ "$item" -lt 1 ] || [ "$item" -gt "$maximum" ]`; a test that fails is not true. -/
def outOfRange (maximum : ℕ) (item : Text) : Bool :=
  Sh.less (Sh.testNumber item) (some 1) || Sh.greater (Sh.testNumber item) (Sh.operand maximum)

/-- The messages of `_glm53_validate_int_list`, each with status 2. -/
inductive ListError where
  /-- "$name must be a comma-separated list of positive integers (got: $value)". -/
  | notList (value : Text)
  /-- "$name items must be between 1 and $maximum (got: $value)". -/
  | range (maximum : ℕ) (value : Text)
  deriving DecidableEq

/-- `_glm53_validate_int_list name value maximum`. -/
def validateIntList (value : Text) (maximum : ℕ) : Except ListError Unit :=
  if value = [] ∨ (value.any fun c => !(c.isDigit || c == ',')) ∨ value.head? = some ',' ∨
      value.getLast? = some ',' ∨ [',', ','] <:+: value then
    .error (.notList value)
  else if (value.splitOn ',').any (outOfRange maximum) then .error (.range maximum value)
  else .ok ()

/-- The numbers of a list. -/
def intList (value : Text) : List ℕ := (value.splitOn ',').map (Sh.value 10)

example : validateIntList ['2', ',', '4', ',', '7'] 64 = .ok () := by decide
example : validateIntList ['2', ',', '6', '5'] 64 = .error (.range 64 ['2', ',', '6', '5']) := by
  decide

/-- The items of a list, between commas. -/
def IsList (P : Text → Prop) (value : Text) : Prop :=
  ∃ items : List Text, items ≠ [] ∧ [','].intercalate items = value ∧
    ∀ item ∈ items, Sh.isDigits item = true ∧ P item

/-- A list of numbers between 1 and the maximum. -/
def IsIntList (maximum : ℕ) (value : Text) : Prop :=
  IsList (fun item => 1 ≤ Sh.value 10 item ∧ Sh.value 10 item ≤ maximum) value

/-- The patterns `''|*[!0-9,]*|,*|*,|*,,*`. -/
def Refused (value : Text) : Prop :=
  value = [] ∨ (value.any fun c => !(c.isDigit || c == ',')) ∨ value.head? = some ',' ∨
    value.getLast? = some ',' ∨ [',', ','] <:+: value

/-! ### What is a list -/

theorem comma_not_mem {item : Text} (h : Sh.isDigits item = true) : ',' ∉ item :=
  fun hc => Bool.false_ne_true ((Sh.isDigits_iff.mp h).2 ',' hc)

/-- The items of a list are what stands between its commas. -/
theorem isList_iff_split (P : Text → Prop) (value : Text) :
    IsList P value ↔ ∀ item ∈ value.splitOn ',', Sh.isDigits item = true ∧ P item := by
  constructor
  · rintro ⟨items, hne, rfl, hall⟩
    rwa [List.splitOn_intercalate ',' (fun item hitem => comma_not_mem (hall item hitem).1) hne]
  · intro h
    exact ⟨value.splitOn ',', List.splitOn_ne_nil ',' value, List.intercalate_splitOn ',', h⟩

theorem head_splitOn (t : Text) : ∃ items, t.splitOn ',' = t.takeWhile (· ≠ ',') :: items := by
  induction t with
  | nil => exact ⟨[], rfl⟩
  | cons c t ih =>
    obtain ⟨items, heq⟩ := ih
    rw [List.splitOn_cons_eq_if_modifyHead, heq]
    by_cases hc : c = ','
    · rw [if_pos (by simpa using hc), List.takeWhile_cons_of_neg (by simpa using hc)]
      exact ⟨_, rfl⟩
    · rw [if_neg (by simpa using hc), List.takeWhile_cons_of_pos (by simpa using hc)]
      exact ⟨items, rfl⟩

/-- The first item is empty. -/
theorem takeWhile_eq_nil_iff (t : Text) :
    t.takeWhile (· ≠ ',') = [] ↔ t = [] ∨ t.head? = some ',' := by
  cases t with
  | nil => simp
  | cons c t => by_cases hc : c = ',' <;> simp [hc]

/-- A later item is empty. -/
theorem nil_mem_tail_splitOn (t : Text) :
    [] ∈ (t.splitOn ',').tail ↔ t.getLast? = some ',' ∨ [',', ','] <:+: t := by
  induction t with
  | nil => simp
  | cons c t ih =>
    obtain ⟨items, heq⟩ := head_splitOn t
    have hfirst := takeWhile_eq_nil_iff t
    rw [heq, List.tail_cons] at ih
    rw [List.splitOn_cons_eq_if_modifyHead, heq, List.infix_cons_iff]
    by_cases hc : c = ','
    · subst hc
      have hpair : [',', ','] <+: ',' :: t ↔ t.head? = some ',' := by
        rw [List.cons_prefix_cons, and_iff_right rfl]
        cases t <;> simp [eq_comm]
      have hlast : (',' :: t).getLast? = some ',' ↔ t = [] ∨ t.getLast? = some ',' := by
        cases t <;> simp [List.getLast?_cons_cons]
      rw [if_pos (by simp), List.tail_cons, List.mem_cons, eq_comm, hfirst, ih, hpair, hlast]
      tauto
    · have hpair : ¬[',', ','] <+: c :: t := fun h => hc (List.cons_prefix_cons.mp h).1.symm
      have hlast : (c :: t).getLast? = some ',' ↔ t.getLast? = some ',' := by
        cases t <;> simp [List.getLast?_cons_cons, hc]
      rw [if_neg (by simpa using hc), List.modifyHead_cons, List.tail_cons, ih, hlast,
        or_iff_right hpair]

/-- The letters of the items are those of the string but the commas. -/
theorem mem_splitOn (t : Text) (c : Char) : (∃ item ∈ t.splitOn ',', c ∈ item) ↔
    c ∈ t ∧ c ≠ ',' := by
  induction t with
  | nil => simp
  | cons d t ih =>
    obtain ⟨items, heq⟩ := head_splitOn t
    rw [heq] at ih
    rw [List.splitOn_cons_eq_if_modifyHead, heq, List.mem_cons]
    by_cases hd : d = ','
    · subst hd
      rw [if_pos (beq_self_eq_true _), List.exists_mem_cons_iff, ih]
      simp only [List.not_mem_nil, false_or]
      tauto
    · rw [if_neg (by simpa using hd), List.modifyHead_cons, List.exists_mem_cons_iff, List.mem_cons,
        or_assoc, ← List.exists_mem_cons_iff (fun item => c ∈ item) _ items, ih]
      constructor
      · rintro (rfl | ⟨h, hc⟩)
        · exact ⟨.inl rfl, hd⟩
        · exact ⟨.inr h, hc⟩
      · rintro ⟨rfl | h, hc⟩
        · exact .inl rfl
        · exact .inr ⟨h, hc⟩

/-- The patterns leave the lists of strings of digits. -/
theorem refused_iff (value : Text) :
    Refused value ↔ ∃ item ∈ value.splitOn ',', Sh.isDigits item = false := by
  obtain ⟨items, heq⟩ := head_splitOn value
  have hnil : [] ∈ value.splitOn ',' ↔ value = [] ∨ value.head? = some ',' ∨
      value.getLast? = some ',' ∨ [',', ','] <:+: value := by
    have hlater := nil_mem_tail_splitOn value
    rw [heq, List.tail_cons] at hlater
    rw [heq, List.mem_cons, eq_comm, takeWhile_eq_nil_iff, hlater, or_assoc]
  have hletter : (value.any fun c => !(c.isDigit || c == ',')) = true ↔
      ∃ item ∈ value.splitOn ',', ∃ c ∈ item, c.isDigit = false := by
    simp only [List.any_eq_true, Bool.not_eq_true', Bool.or_eq_false_iff, beq_eq_false_iff_ne]
    constructor
    · rintro ⟨c, hc, hdigit, hcomma⟩
      obtain ⟨item, hitem, hmem⟩ := (mem_splitOn value c).mpr ⟨hc, hcomma⟩
      exact ⟨item, hitem, c, hmem, hdigit⟩
    · rintro ⟨item, hitem, c, hmem, hdigit⟩
      obtain ⟨hc, hcomma⟩ := (mem_splitOn value c).mp ⟨item, hitem, hmem⟩
      exact ⟨c, hc, hdigit, hcomma⟩
  have hdigits : ∀ item : Text, Sh.isDigits item = false ↔
      item = [] ∨ ∃ c ∈ item, c.isDigit = false := by
    intro item
    rw [← Bool.not_eq_true, Sh.isDigits_iff, not_and_or, not_ne_iff]
    simp
  simp only [hdigits, and_or_left, exists_or, ← hletter, exists_eq_right]
  rw [Refused, hnil]
  tauto

/-! ### What the check lets pass -/

/-- A number that does not fit is not out of range. -/
theorem outOfRange_eq_false_iff (maximum : ℕ) {item : Text} (h : Sh.isDigits item = true) :
    outOfRange maximum item = false ↔
      1 ≤ Sh.value 10 item ∧ (Sh.value 10 item ≤ maximum ∨ 2 ^ 63 ≤ Sh.value 10 item) := by
  rw [outOfRange, Sh.testNumber_digits h, Sh.operand]
  split_ifs with hitem hmax
  · exact iff_of_true rfl (by omega)
  · exact iff_of_true rfl (by omega)
  · simp only [Sh.less, Sh.greater, Bool.or_false, decide_eq_false_iff_not]
    omega
  · simp only [Sh.less, Sh.greater, Bool.or_eq_false_iff, decide_eq_false_iff_not]
    omega

/-- Which strings the check lets pass: an item of more than 63 bits is not tested. -/
theorem validateIntList_ok_iff (value : Text) (maximum : ℕ) :
    validateIntList value maximum = .ok () ↔
    IsList (fun item => 1 ≤ Sh.value 10 item ∧
      (Sh.value 10 item ≤ maximum ∨ 2 ^ 63 ≤ Sh.value 10 item)) value := by
  rw [isList_iff_split]
  have hrefused := refused_iff value
  rw [validateIntList]
  split_ifs with h hrange
  · obtain ⟨item, hitem, hno⟩ := hrefused.mp h
    rw [iff_false_left (by simp)]
    exact fun hall => Bool.false_ne_true (hno.symm.trans (hall item hitem).1)
  · obtain ⟨item, hitem, hout⟩ := List.any_eq_true.mp hrange
    rw [iff_false_left (by simp)]
    intro hall
    obtain ⟨hdigits, hin⟩ := hall item hitem
    exact Bool.false_ne_true (((outOfRange_eq_false_iff maximum hdigits).mpr hin).symm.trans hout)
  · simp only [true_iff]
    intro item hitem
    have hdigits : Sh.isDigits item = true := by
      by_contra hno
      exact h (hrefused.mpr ⟨item, hitem, Bool.not_eq_true _ ▸ hno⟩)
    refine ⟨hdigits, (outOfRange_eq_false_iff maximum hdigits).mp ?_⟩
    by_contra hno
    exact hrange (List.any_eq_true.mpr ⟨item, hitem, Bool.not_eq_false _ ▸ hno⟩)

/-- The numbers of a validated list are positive. -/
theorem pos_of_validated {value : Text} {maximum : ℕ} (h : validateIntList value maximum = .ok ())
    {k : ℕ} (hk : k ∈ intList value) : 0 < k := by
  obtain ⟨item, hitem, rfl⟩ := List.mem_map.mp hk
  exact ((isList_iff_split _ _).mp ((validateIntList_ok_iff _ _).mp h) item hitem).2.1

/-- The check does not depend on a number that it cannot test: none that is too large has more than
63 bits, or the string is refused for another reason. -/
def Testable (maximum : ℕ) (value : Text) : Prop :=
  (∀ item ∈ value.splitOn ',', 2 ^ 63 ≤ Sh.value 10 item → Sh.value 10 item ≤ maximum) ∨
    ∃ item ∈ value.splitOn ',', Sh.isDigits item = false ∨ Sh.value 10 item = 0 ∨
      (maximum < Sh.value 10 item ∧ Sh.value 10 item < 2 ^ 63)

/-- **The list check** accepts exactly the lists of numbers between 1 and the maximum, for the
strings with nothing that it cannot test. -/
theorem validateIntList_iff (value : Text) (maximum : ℕ) :
    (validateIntList value maximum = .ok () ↔ IsIntList maximum value) ↔
      Testable maximum value := by
  rw [validateIntList_ok_iff, IsIntList, isList_iff_split, isList_iff_split, Testable]
  constructor
  · intro h
    by_contra hno
    push Not at hno
    obtain ⟨⟨large, hlarge, -, habove⟩, hothers⟩ := hno
    have hpass := h.mp fun item hitem => by
      obtain ⟨hdigits, hpos, hrange⟩ := hothers item hitem
      have := hrange
      exact ⟨by simpa using hdigits, by omega, by omega⟩
    have := (hpass large hlarge).2.2
    omega
  · intro h
    constructor
    · intro hall item hitem
      obtain ⟨hdigits, hpos, hle⟩ := hall item hitem
      refine ⟨hdigits, hpos, ?_⟩
      rcases h with h | ⟨other, hother, hbad⟩
      · exact hle.elim id (h item hitem)
      · obtain ⟨hdigits', hpos', hle'⟩ := hall other hother
        rcases hbad with hbad | hbad | hbad
        · exact absurd hdigits' (by simp [hbad])
        · omega
        · omega
    · exact fun hall item hitem =>
        ⟨(hall item hitem).1, (hall item hitem).2.1, .inl (hall item hitem).2.2⟩

/-- `GLM53_ADAPTIVE_K_SET=9223372036854775808` passes. -/
theorem validateIntList_oversized :
    validateIntList
      ['9', '2', '2', '3', '3', '7', '2', '0', '3', '6', '8', '5', '4', '7', '7', '5', '8', '0',
        '8'] 64 = .ok () ∧
      ¬ IsIntList 64
        ['9', '2', '2', '3', '3', '7', '2', '0', '3', '6', '8', '5', '4', '7', '7', '5', '8',
        '0', '8'] := by
  refine ⟨by decide, fun h => ?_⟩
  rw [IsIntList, isList_iff_split, List.splitOn_eq_singleton (by decide)] at h
  have hle := (h _ List.mem_cons_self).2.2
  revert hle
  decide

end Glm53Serve.Launcher
