import Glm53Serve.Py.Text
import Mathlib.Data.List.Basic

/-!
# Lines of a text

`str.splitlines`, which ends a line at more characters than `bytes.splitlines` does, and
the last elements of a list. A line feed is a hard boundary for the decoder and for the
lines alike.

## What is proved

* `decode_append_lf` — bytes before and after a line feed are decoded on their own.
* `strSplitlines_append_lf` — and split on their own.
* `count_lf_le_length` — every line feed of the bytes ends a line of the text.
* `lastItems_append` — the last elements of a list that ends with enough of them.
-/

namespace Py

/-- The characters that end a line of a `str`: `\n`, `\v`, `\f`, `\r`, the separators U+001C
to U+001E, U+0085, U+2028 and U+2029. -/
def isLineEnd (c : Char) : Bool :=
  let n := c.toNat
  (10 ≤ n && n ≤ 13) || (28 ≤ n && n ≤ 30) || n == 0x85 || n == 0x2028 || n == 0x2029

/-- `splitlines` with the line read so far, and whether the character before was a `\r`:
`\r\n` is one line end. -/
def strSplitlinesFrom (cur : Text) (afterCr : Bool) : Text → List Text
  | [] => if cur = [] then [] else [cur]
  | c :: t =>
    if afterCr ∧ c = '\n' then strSplitlinesFrom [] false t
    else if isLineEnd c then cur :: strSplitlinesFrom [] (c = '\r') t
    else strSplitlinesFrom (cur ++ [c]) false t

/-- `str.splitlines()`. -/
def strSplitlines (t : Text) : List Text := strSplitlinesFrom [] false t

example : strSplitlines "a\r\nb\r\rc\u2028\n".toList = [['a'], ['b'], [], ['c'], []] := by decide

/-- A line feed is a hard boundary: what follows starts afresh. -/
theorem strSplitlinesFrom_append_lf (a b : Text) : ∀ (cur : Text) (afterCr : Bool),
    strSplitlinesFrom cur afterCr (a ++ '\n' :: b) =
      strSplitlinesFrom cur afterCr (a ++ ['\n']) ++ strSplitlines b := by
  induction a with
  | nil =>
    intro cur afterCr
    cases afterCr <;> simp [strSplitlinesFrom, strSplitlines, isLineEnd]
  | cons c a ih =>
    intro cur afterCr
    simp only [List.cons_append, strSplitlinesFrom, ih]
    split_ifs <;> rfl

theorem strSplitlines_append_lf (a b : Text) :
    strSplitlines (a ++ '\n' :: b) = strSplitlines (a ++ ['\n']) ++ strSplitlines b :=
  strSplitlinesFrom_append_lf a b [] false

/-- Every line feed ends a line, but for one that follows a `\r`, whose line has ended. -/
theorem count_le_length_strSplitlinesFrom (t : Text) : ∀ (cur : Text) (afterCr : Bool),
    t.count '\n' ≤ (strSplitlinesFrom cur afterCr t).length + if afterCr then 1 else 0 := by
  induction t with
  | nil => simp
  | cons c t ih =>
    intro cur afterCr
    by_cases hn : c = '\n'
    · subst hn
      rw [List.count_cons_self]
      cases afterCr with
      | true =>
        have hskip := ih [] false
        simpa [strSplitlinesFrom] using hskip
      | false =>
        have hend := ih [] false
        simpa [strSplitlinesFrom, isLineEnd] using hend
    · have hskip : ¬ (afterCr = true ∧ c = '\n') := fun h => hn h.2
      rw [List.count_cons_of_ne hn, strSplitlinesFrom, if_neg hskip]
      refine Nat.le_add_right_of_le ?_
      by_cases hend : isLineEnd c = true
      · have hline := ih [] (decide (c = '\r'))
        rw [if_pos hend, List.length_cons]
        split_ifs at hline <;> omega
      · rw [if_neg hend]
        exact ih (cur ++ [c]) false

/-! ### Decoding -/

/-- An ASCII byte is a hard boundary for the decoder. -/
theorem decodeFrom_append_cons {b : UInt8} (hb : b.toNat < 0x80) (as bs : Bytes) :
    ∀ s : Utf8State, s.Valid →
      decodeFrom s (as ++ b :: bs) = decodeFrom s as ++ Char.ofNat b.toNat :: decode bs := by
  induction as with
  | nil =>
    intro s hs
    cases s with
    | start => simp [decodeFrom, utf8Step, utf8Start, hb, decode]
    | more owed lo hi bits =>
      have hlo : ¬ (lo ≤ b.toNat ∧ b.toNat ≤ hi) := by
        have : 0x80 ≤ lo := hs
        omega
      simp [decodeFrom, utf8Step, utf8Start, hb, hlo, decode]
  | cons a as ih =>
    intro s _
    rw [List.cons_append, decodeFrom_cons, decodeFrom_cons, ih _ (utf8Step_valid _),
      List.append_assoc]

/-- A line feed is a hard boundary for the decoder. -/
theorem decode_append_lf (as bs : Bytes) :
    decode (as ++ lf :: bs) = decode as ++ '\n' :: decode bs :=
  decodeFrom_append_cons (by decide) as bs .start trivial

/-- The line feeds of the bytes are line feeds of the text. -/
theorem count_lf_le_count_decodeFrom (bs : Bytes) : ∀ s : Utf8State, s.Valid →
    bs.count lf ≤ (decodeFrom s bs).count '\n' := by
  induction bs with
  | nil => exact fun s _ => Nat.zero_le _
  | cons b bs ih =>
    intro s hs
    by_cases hb : b = lf
    · subst hb
      have hlf := decodeFrom_append_cons (b := lf) (by decide) [] bs s hs
      rw [List.nil_append] at hlf
      rw [hlf, List.count_append, List.count_cons_self]
      have hchar : Char.ofNat lf.toNat = '\n' := rfl
      rw [hchar, List.count_cons_self]
      exact Nat.le_add_left_of_le (Nat.succ_le_succ (ih .start trivial))
    · rw [List.count_cons_of_ne hb, decodeFrom_cons, List.count_append]
      exact Nat.le_add_left_of_le (ih _ (utf8Step_valid _))

theorem count_lf_le_length (bs : Bytes) : bs.count lf ≤ (strSplitlines (decode bs)).length :=
  (count_lf_le_count_decodeFrom bs .start trivial).trans
    (count_le_length_strSplitlinesFrom (decode bs) [] false)

/-! ### The end of a list -/

/-- `l[-n:]`, for `n` at least 1. -/
def lastItems {α : Type*} (n : ℕ) (l : List α) : List α := l.drop (l.length - n)

/-- Only the end counts where it has enough elements. -/
theorem lastItems_append {α : Type*} {n : ℕ} (l : List α) {l' : List α} (h : n ≤ l'.length) :
    lastItems n (l ++ l') = lastItems n l' := by
  rw [lastItems, lastItems, List.length_append, Nat.add_sub_assoc h, List.drop_length_add_append]

end Py
