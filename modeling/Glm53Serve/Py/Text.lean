import Mathlib.Data.List.DropRight

/-!
# Python text

The parts of Python's `bytes` and `str` that the tools rely on: `bytes.splitlines`,
`bytes.decode("utf-8", errors="replace")`, `str.isspace` and `str.strip`. A `bytes`
is a list of bytes and a `str` is a list of code points.

## What is proved

* `splitlines_append` — a line feed is a hard boundary: splitting a text that ends
  with a line feed and a text that follows it is splitting the two one after the
  other.
* `completePart_append`, `newlineLines_completePart` — the part of a text up to its
  last line feed, which is what a reader of a growing file may consume.
* `filterMap_newlineLines` — `splitlines` finds the lines that line feeds end, up to
  the carriage return of a `\r\n`, when there is no other carriage return.
* `decode_append_ascii` — an ASCII byte ends whatever the decoder was in the middle
  of, so it decodes to itself after any text.
* `strip_append_space` — white space at the end of a text does not change what
  `strip` returns.
-/

namespace Py

/-- A `bytes` object. -/
abbrev Bytes := List UInt8

/-- A `str` object, as its code points. -/
abbrev Text := List Char

/-- `b"\n"`. -/
def lf : UInt8 := 10

/-- `b"\r"`. -/
def cr : UInt8 := 13

/-! ### Lines -/

/-- `splitlines` with the line read so far. `b"\r\n"` is one line end. -/
def splitlinesFrom (cur : Bytes) : Bytes → List Bytes
  | [] => if cur = [] then [] else [cur]
  | b :: bs =>
    if b = lf then cur :: splitlinesFrom [] bs
    else if b = cr then
      match bs with
      | [] => [cur]
      | c :: bs' =>
        if c = lf then cur :: splitlinesFrom [] bs' else cur :: splitlinesFrom [] (c :: bs')
    else splitlinesFrom (cur ++ [b]) bs

/-- `bytes.splitlines()`: the lines, without their ends; a line ends at `\n`, `\r\n` or `\r`. -/
def splitlines (bs : Bytes) : List Bytes := splitlinesFrom [] bs

@[simp] theorem splitlines_nil : splitlines [] = [] := rfl

theorem splitlinesFrom_lf (cur bs : Bytes) :
    splitlinesFrom cur (lf :: bs) = cur :: splitlinesFrom [] bs := by
  cases bs <;> simp [splitlinesFrom]

theorem splitlinesFrom_cr_lf (cur bs : Bytes) :
    splitlinesFrom cur (cr :: lf :: bs) = cur :: splitlinesFrom [] bs := by
  simp [splitlinesFrom, show cr ≠ lf by decide]

theorem splitlinesFrom_cr (cur : Bytes) {c : UInt8} (hc : c ≠ lf) (bs : Bytes) :
    splitlinesFrom cur (cr :: c :: bs) = cur :: splitlinesFrom [] (c :: bs) := by
  simp [splitlinesFrom, show cr ≠ lf by decide, hc]

theorem splitlinesFrom_other (cur : Bytes) {b : UInt8} (hl : b ≠ lf) (hc : b ≠ cr) (bs : Bytes) :
    splitlinesFrom cur (b :: bs) = splitlinesFrom (cur ++ [b]) bs := by
  cases bs <;> simp [splitlinesFrom, hl, hc]

/-- Splitting at a line feed, whatever the line read so far. -/
theorem splitlinesFrom_append_lf (bs : Bytes) : ∀ (n : ℕ) (as cur : Bytes), as.length ≤ n →
    splitlinesFrom cur (as ++ lf :: bs) = splitlinesFrom cur (as ++ [lf]) ++ splitlines bs := by
  -- the induction is on a bound of the length, since `\r\n` takes two bytes at once
  intro n
  induction n with
  | zero =>
    intro as cur h
    obtain rfl := List.length_eq_zero_iff.mp (Nat.le_zero.mp h)
    simp [splitlinesFrom_lf, splitlinesFrom, splitlines]
  | succ n ih =>
    intro as cur h
    cases as with
    | nil => simp [splitlinesFrom_lf, splitlinesFrom, splitlines]
    | cons a as =>
      have h' : as.length ≤ n := by simpa using h
      by_cases hl : a = lf
      · subst hl
        simp only [List.cons_append, splitlinesFrom_lf, ih as [] h']
      by_cases hc : a = cr
      · subst hc
        cases as with
        | nil =>
          simp only [List.cons_append, List.nil_append, splitlinesFrom_cr_lf]
          rfl
        | cons c as =>
          by_cases hcl : c = lf
          · subst hcl
            have h'' : as.length ≤ n := by simp at h'; omega
            simp only [List.cons_append, splitlinesFrom_cr_lf, ih as [] h'']
          · have := ih (c :: as) [] h'
            simp only [List.cons_append] at this
            simp only [List.cons_append, splitlinesFrom_cr cur hcl, this]
      · simp only [List.cons_append, splitlinesFrom_other cur hl hc, ih as _ h']

/-- A text that is empty or ends with a line feed. -/
def Complete (bs : Bytes) : Prop := bs = [] ∨ ∃ as, bs = as ++ [lf]

/-- After complete lines, the rest is split on its own. -/
theorem splitlines_append {as : Bytes} (h : Complete as) (bs : Bytes) :
    splitlines (as ++ bs) = splitlines as ++ splitlines bs := by
  rcases h with rfl | ⟨as, rfl⟩
  · rfl
  · have := splitlinesFrom_append_lf bs as.length as [] le_rfl
    simpa [splitlines] using this

/-- `bytes.rfind(bytes([b]))`, with `none` for `-1`. -/
def rfind (b : UInt8) : Bytes → Option ℕ
  | [] => none
  | a :: as =>
    match rfind b as with
    | some i => some (i + 1)
    | none => if a = b then some 0 else none

theorem rfind_append (b : UInt8) (as bs : Bytes) :
    rfind b (as ++ bs) = ((rfind b bs).map (as.length + ·)).or (rfind b as) := by
  induction as with
  | nil => cases h : rfind b bs <;> simp [rfind, h]
  | cons a as ih =>
    simp only [List.cons_append, rfind, ih]
    cases rfind b bs <;> simp [Nat.add_right_comm]

theorem rfind_eq_none_iff {b : UInt8} {bs : Bytes} : rfind b bs = none ↔ b ∉ bs := by
  induction bs with
  | nil => simp [rfind]
  | cons a as ih =>
    cases h : rfind b as with
    | none =>
      have := ih.mp h
      simp only [rfind, h, List.mem_cons, not_or]
      split_ifs with hab
      · simp [hab]
      · simpa [this] using fun e => hab e.symm
    | some i =>
      have : b ∈ as := by
        by_contra hb
        simp [ih.mpr hb] at h
      simp [rfind, h, this]

/-- What is found is there. -/
theorem take_rfind {b : UInt8} {bs : Bytes} {i : ℕ} (h : rfind b bs = some i) :
    bs.take (i + 1) = bs.take i ++ [b] ∧ i < bs.length := by
  induction bs generalizing i with
  | nil => simp [rfind] at h
  | cons a as ih =>
    cases hr : rfind b as with
    | some j =>
      obtain rfl : j + 1 = i := by simpa [rfind, hr] using h
      simpa using ih hr
    | none =>
      simp only [rfind, hr] at h
      split_ifs at h with hab
      obtain rfl : 0 = i := by simpa using h
      simp [hab]

/-- The text up to its last line feed. -/
def completePart (bs : Bytes) : Bytes :=
  match rfind lf bs with
  | none => []
  | some i => bs.take (i + 1)

theorem completePart_complete (bs : Bytes) : Complete (completePart bs) := by
  unfold completePart
  cases h : rfind lf bs with
  | none => exact Or.inl rfl
  | some i => exact Or.inr ⟨_, (take_rfind h).1⟩

theorem completePart_prefixOf (bs : Bytes) : completePart bs <+: bs := by
  unfold completePart
  cases rfind lf bs with
  | none => exact List.nil_prefix
  | some i => exact List.take_prefix _ _

theorem completePart_eq_self {bs : Bytes} (h : Complete bs) : completePart bs = bs := by
  rcases h with rfl | ⟨as, rfl⟩
  · rfl
  · simp [completePart, rfind_append, rfind, List.take_of_length_le]

theorem completePart_append {as : Bytes} (h : Complete as) (bs : Bytes) :
    completePart (as ++ bs) = as ++ completePart bs := by
  cases hb : rfind lf bs with
  | some i => simp [completePart, rfind_append, hb, Nat.add_assoc, List.take_length_add_append]
  | none =>
    have := completePart_eq_self h
    rcases h with rfl | ⟨as, rfl⟩
    · simp
    · have hr : rfind lf (as ++ [lf] ++ bs) = some as.length := by
        simp [rfind_append, hb, rfind]
      simp only [completePart, hr, hb, List.append_nil]
      exact List.take_left' (by simp)

/-- The lines that a line feed ends, without it; what follows the last line feed is
no line yet. -/
def newlineLinesFrom (cur : Bytes) : Bytes → List Bytes
  | [] => []
  | b :: bs => if b = lf then cur :: newlineLinesFrom [] bs else newlineLinesFrom (cur ++ [b]) bs

/-- `newlineLinesFrom` from the start of a text. -/
def newlineLines (bs : Bytes) : List Bytes := newlineLinesFrom [] bs

theorem newlineLinesFrom_append_lf (as bs cur : Bytes) :
    newlineLinesFrom cur (as ++ lf :: bs) = newlineLinesFrom cur (as ++ [lf]) ++
      newlineLines bs := by
  induction as generalizing cur with
  | nil => simp [newlineLinesFrom, newlineLines]
  | cons a as ih =>
    simp only [List.cons_append, newlineLinesFrom]
    split_ifs with h
    · rw [ih, List.cons_append]
    · rw [ih]

theorem newlineLinesFrom_eq_nil {bs : Bytes} (h : lf ∉ bs) (cur : Bytes) :
    newlineLinesFrom cur bs = [] := by
  induction bs generalizing cur with
  | nil => rfl
  | cons b bs ih =>
    simp only [List.mem_cons, not_or] at h
    rw [newlineLinesFrom, if_neg fun e => h.1 e.symm, ih h.2]

theorem completePart_eq_nil_iff {bs : Bytes} : completePart bs = [] ↔ lf ∉ bs := by
  rw [← rfind_eq_none_iff, completePart]
  cases h : rfind lf bs with
  | none => simp
  | some i => simp [(take_rfind h).1]

/-- After the last line feed there is none. -/
theorem exists_partial_line (bs : Bytes) : ∃ tail, bs = completePart bs ++ tail ∧ lf ∉ tail := by
  obtain ⟨tail, ht⟩ := completePart_prefixOf bs
  refine ⟨tail, ht.symm, ?_⟩
  have happ := completePart_append (completePart_complete bs) tail
  rw [ht] at happ
  rw [← completePart_eq_nil_iff]
  exact List.self_eq_append_right.mp happ

/-- The complete lines of a text are those of its complete part. -/
theorem newlineLines_completePart (bs : Bytes) :
    newlineLines (completePart bs) = newlineLines bs := by
  obtain ⟨tail, ht, hlf⟩ := exists_partial_line bs
  rcases completePart_complete bs with h | ⟨as, h⟩
  · rw [h, List.nil_append] at ht
    subst ht
    rw [h, newlineLines, newlineLines, newlineLinesFrom_eq_nil hlf, newlineLinesFrom]
  · have hlast : newlineLines tail = [] := newlineLinesFrom_eq_nil hlf []
    conv_rhs => rw [ht, h, List.append_assoc, List.singleton_append]
    rw [h, newlineLines, newlineLines, newlineLinesFrom_append_lf as tail, hlast, List.append_nil]

/-- Every carriage return is followed by a line feed. -/
def CrLf : Bytes → Prop
  | [] => True
  | b :: bs => (b = cr → bs.head? = some lf) ∧ CrLf bs

instance decidableCrLf : (bs : Bytes) → Decidable (CrLf bs)
  | [] => isTrue trivial
  | b :: bs =>
    have := decidableCrLf bs
    inferInstanceAs (Decidable ((b = cr → bs.head? = some lf) ∧ CrLf bs))

/-- What is read off the lines is the same whichever way they are split, if every
carriage return belongs to a `\r\n` and is not looked at. -/
theorem filterMap_newlineLinesFrom {β : Type*} {f : Bytes → Option β}
    (hf : ∀ l, f (l ++ [cr]) = f l) (n : ℕ) : ∀ (as cur : Bytes), as.length ≤ n →
      CrLf (as ++ [lf]) → (newlineLinesFrom cur (as ++ [lf])).filterMap f =
        (splitlinesFrom cur (as ++ [lf])).filterMap f := by
  induction n with
  | zero =>
    intro as cur h _
    obtain rfl := List.length_eq_zero_iff.mp (Nat.le_zero.mp h)
    simp [newlineLinesFrom, splitlinesFrom]
  | succ n ih =>
    intro as cur h hcr
    cases as with
    | nil => simp [newlineLinesFrom, splitlinesFrom]
    | cons a as =>
      have h' : as.length ≤ n := by simpa using h
      by_cases hl : a = lf
      · subst hl
        simp only [List.cons_append, splitlinesFrom_lf, newlineLinesFrom, if_true,
          List.filterMap_cons, ih as [] h' hcr.2]
      by_cases hc : a = cr
      · subst hc
        have hnext := hcr.1 rfl
        cases as with
        | nil =>
          simp only [List.cons_append, List.nil_append, splitlinesFrom_cr_lf, newlineLinesFrom,
            if_true, if_neg hl, splitlinesFrom, List.filterMap_cons, hf]
        | cons c as =>
          obtain rfl : c = lf := by simpa using hnext
          have h'' : as.length ≤ n := by simp at h'; omega
          simp only [List.cons_append, splitlinesFrom_cr_lf, newlineLinesFrom, if_true, if_neg hl,
            List.filterMap_cons, hf, ih as [] h'' hcr.2.2]
      · rw [List.cons_append, splitlinesFrom_other cur hl hc, newlineLinesFrom, if_neg hl]
        exact ih as _ h' hcr.2

theorem filterMap_newlineLines {β : Type*} {f : Bytes → Option β}
    (hf : ∀ l, f (l ++ [cr]) = f l) {bs : Bytes} (hcr : CrLf bs) (h : Complete bs) :
    (newlineLines bs).filterMap f = (splitlines bs).filterMap f := by
  rcases h with rfl | ⟨as, rfl⟩
  · rfl
  · exact filterMap_newlineLinesFrom hf as.length as [] le_rfl hcr

/-! ### UTF-8 -/

/-- The decoder between two bytes: at the start of a character, or inside one, with
the number of bytes still owed after the next one, the bounds of the next one, and
the bits read so far. -/
inductive Utf8State where
  /-- At the start of a character. -/
  | start
  /-- Inside a character. -/
  | more (owed lo hi bits : ℕ)
  deriving DecidableEq, Repr

/-- U+FFFD, which `errors="replace"` puts for an ill-formed sequence. -/
def replacement : Char := Char.ofNat 0xFFFD

/-- A byte at the start of a character. -/
def utf8Start (b : ℕ) : Utf8State × Text :=
  if b < 0x80 then (.start, [Char.ofNat b])
  else if 0xC2 ≤ b ∧ b ≤ 0xDF then (.more 0 0x80 0xBF (b - 0xC0), [])
  else if b = 0xE0 then (.more 1 0xA0 0xBF 0, [])
  else if b = 0xED then (.more 1 0x80 0x9F 0xD, [])
  else if 0xE1 ≤ b ∧ b ≤ 0xEF then (.more 1 0x80 0xBF (b - 0xE0), [])
  else if b = 0xF0 then (.more 2 0x90 0xBF 0, [])
  else if 0xF1 ≤ b ∧ b ≤ 0xF3 then (.more 2 0x80 0xBF (b - 0xF0), [])
  else if b = 0xF4 then (.more 2 0x80 0x8F 4, [])
  else (.start, [replacement])

/-- One byte: the next state, and the characters it completes. A byte that cannot
continue the character begun ends it as one replacement and starts afresh. -/
def utf8Step : Utf8State → ℕ → Utf8State × Text
  | .start, b => utf8Start b
  | .more owed lo hi bits, b =>
    if lo ≤ b ∧ b ≤ hi then
      match owed with
      | 0 => (.start, [Char.ofNat (bits * 64 + (b - 0x80))])
      | n + 1 => (.more n 0x80 0xBF (bits * 64 + (b - 0x80)), [])
    else ((utf8Start b).1, replacement :: (utf8Start b).2)

/-- Decode from a state; a character cut by the end of the input is one replacement. -/
def decodeFrom : Utf8State → Bytes → Text
  | .start, [] => []
  | .more .., [] => [replacement]
  | s, b :: bs => (utf8Step s b.toNat).2 ++ decodeFrom (utf8Step s b.toNat).1 bs

/-- `bytes.decode("utf-8", errors="replace")`. -/
def decode (bs : Bytes) : Text := decodeFrom .start bs

example : decode [0x61, 0xE2, 0x82, 0xAC, 0xE2, 0x82, 0x62] = ['a', '€', replacement, 'b'] := by
  decide

theorem decodeFrom_cons (s : Utf8State) (b : UInt8) (bs : Bytes) :
    decodeFrom s (b :: bs) = (utf8Step s b.toNat).2 ++ decodeFrom (utf8Step s b.toNat).1 bs := by
  cases s <;> rfl

/-- No continuation byte is an ASCII byte. -/
def Utf8State.Valid : Utf8State → Prop
  | .start => True
  | .more _ lo _ _ => 0x80 ≤ lo

theorem utf8Start_valid (b : ℕ) : (utf8Start b).1.Valid := by
  unfold utf8Start
  split_ifs <;> simp [Utf8State.Valid]

theorem utf8Step_valid {s : Utf8State} (b : ℕ) : (utf8Step s b).1.Valid := by
  cases s with
  | start => exact utf8Start_valid b
  | more owed lo hi bits =>
    simp only [utf8Step]
    split_ifs
    · cases owed <;> simp [Utf8State.Valid]
    · exact utf8Start_valid b

theorem decodeFrom_append_ascii {b : UInt8} (hb : b.toNat < 0x80) (bs : Bytes) :
    ∀ s : Utf8State, s.Valid → decodeFrom s (bs ++ [b]) = decodeFrom s bs ++
      [Char.ofNat b.toNat] := by
  induction bs with
  | nil =>
    intro s hs
    cases s with
    | start => simp [decodeFrom, utf8Step, utf8Start, hb]
    | more owed lo hi bits =>
      have hlo : ¬ (lo ≤ b.toNat ∧ b.toNat ≤ hi) := by
        have : 0x80 ≤ lo := hs
        omega
      simp [decodeFrom, utf8Step, utf8Start, hb, hlo]
  | cons a bs ih =>
    intro s _
    rw [List.cons_append, decodeFrom_cons, decodeFrom_cons, ih _ (utf8Step_valid _),
      List.append_assoc]

/-- An ASCII byte decodes to itself after any text. -/
theorem decode_append_ascii {b : UInt8} (hb : b.toNat < 0x80) (bs : Bytes) :
    decode (bs ++ [b]) = decode bs ++ [Char.ofNat b.toNat] :=
  decodeFrom_append_ascii hb bs .start trivial

/-! ### White space -/

/-- `str.isspace()` of one character. -/
def isSpace (c : Char) : Bool :=
  let n := c.toNat
  (9 ≤ n && n ≤ 13) || (28 ≤ n && n ≤ 32) || n == 0x85 || n == 0xA0 || n == 0x1680 ||
    (0x2000 ≤ n && n ≤ 0x200A) || n == 0x2028 || n == 0x2029 || n == 0x202F || n == 0x205F ||
    n == 0x3000

/-- `str.strip()`. -/
def strip (t : Text) : Text := (t.rdropWhile isSpace).dropWhile isSpace

theorem strip_append_space {c : Char} (hc : isSpace c = true) (t : Text) :
    strip (t ++ [c]) = strip t := by
  rw [strip, List.rdropWhile_concat_pos _ _ _ hc, strip]

end Py
