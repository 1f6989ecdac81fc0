import Glm53Serve.Py.Text
import Mathlib.Data.Rat.Defs
import Mathlib.Data.List.Sort
import Mathlib.Data.List.Dedup

/-!
# Python integers

`int(x)` of a `str`, and of a value read from a configuration. `int` of a text takes
white space around it, a sign, decimal digits of any script and single underscores
between digits, and refuses more than 4300 digits.
-/

namespace Py

/-- The code points of the digits zero: a decimal digit is one of these or one of the
nine code points after it. -/
def digitZeros : List ℕ :=
  [0x30, 0x660, 0x6F0, 0x7C0, 0x966, 0x9E6, 0xA66, 0xAE6, 0xB66, 0xBE6, 0xC66, 0xCE6, 0xD66, 0xDE6,
    0xE50, 0xED0, 0xF20, 0x1040, 0x1090, 0x17E0, 0x1810, 0x1946, 0x19D0, 0x1A80, 0x1A90, 0x1B50,
    0x1BB0, 0x1C40, 0x1C50, 0xA620, 0xA8D0, 0xA900, 0xA9D0, 0xA9F0, 0xAA50, 0xABF0, 0xFF10, 0x104A0,
    0x10D30, 0x11066, 0x110F0, 0x11136, 0x111D0, 0x112F0, 0x11450, 0x114D0, 0x11650, 0x116C0,
    0x11730, 0x118E0, 0x11950, 0x11C50, 0x11D50, 0x11DA0, 0x11F50, 0x16A60, 0x16AC0, 0x16B50,
    0x1D7CE, 0x1D7D8, 0x1D7E2, 0x1D7EC, 0x1D7F6, 0x1E140, 0x1E2F0, 0x1E4F0, 0x1E950, 0x1FBF0]

/-- The value of a decimal digit. -/
def digit (c : Char) : Option ℕ :=
  (digitZeros.find? fun z => z ≤ c.toNat && c.toNat ≤ z + 9).map (c.toNat - ·)

/-- The number written by digits with single underscores between them, and how many
digits there are; `afterDigit` says whether the last character read was one. -/
def digitsFrom (afterDigit : Bool) (value count : ℕ) : Text → Option (ℕ × ℕ)
  | [] => if afterDigit then some (value, count) else none
  | c :: cs =>
    if c = '_' then if afterDigit then digitsFrom false value count cs else none
    else
      match digit c with
      | none => none
      | some d => digitsFrom true (value * 10 + d) (count + 1) cs

/-- The most digits `int` converts (`sys.get_int_max_str_digits()`). -/
def maxStrDigits : ℕ := 4300

/-- The number written by unsigned digits. -/
def natOfDigits (t : Text) : Option ℕ :=
  match digitsFrom false 0 0 t with
  | some (value, count) => if count ≤ maxStrDigits then some value else none
  | none => none

/-- White space as `int` sees it: the separators `\x1c` to `\x1f` are not. -/
def isIntSpace (c : Char) : Bool := isSpace c && !(28 ≤ c.toNat && c.toNat ≤ 31)

/-- `int(t)` of a `str`; `none` is `ValueError`. -/
def int (t : Text) : Option ℤ :=
  match (t.rdropWhile isIntSpace).dropWhile isIntSpace with
  | '+' :: ds => (natOfDigits ds).map Int.ofNat
  | '-' :: ds => (natOfDigits ds).map fun n => -Int.ofNat n
  | ds => (natOfDigits ds).map Int.ofNat

example : int [' ', '-', '1', '_', '0', '\n'] = some (-10) := by decide
example : int ['1', '_', '_', '0'] = none := by decide

/-- A value of a configuration, as far as truth and `int` look at it. -/
inductive Value where
  | none
  | bool (b : Bool)
  | int (n : ℤ)
  /-- A finite `float`. -/
  | float (q : ℚ)
  | nan
  | inf
  | str (t : Text)
  /-- Any other object; `int` raises `TypeError`. -/
  | other (truthy : Bool)
  deriving DecidableEq

/-- `bool(v)`. -/
def Value.truthy : Value → Bool
  | .none => false
  | .bool b => b
  | .int n => n ≠ 0
  | .float q => q ≠ 0
  | .nan | .inf => true
  | .str t => t ≠ []
  | .other b => b

/-- What `int` raises. -/
inductive IntError where
  | typeError
  | valueError
  | overflowError
  deriving DecidableEq, Repr

/-- `int(v)`: a `float` is cut towards zero. -/
def Value.toInt : Value → Except IntError ℤ
  | .none | .other _ => .error .typeError
  | .bool b => .ok (if b then 1 else 0)
  | .int n => .ok n
  | .float q => .ok (q.num.tdiv q.den)
  | .nan => .error .valueError
  | .inf => .error .overflowError
  | .str t =>
    match Py.int t with
    | some n => .ok n
    | Option.none => .error .valueError

/-- `sorted(set(l))`. -/
def sortedSet (l : List ℤ) : List ℤ := l.dedup.insertionSort (· ≤ ·)

@[simp] theorem mem_sortedSet {l : List ℤ} {k : ℤ} : k ∈ sortedSet l ↔ k ∈ l := by
  rw [sortedSet, List.mem_insertionSort, List.mem_dedup]

end Py
