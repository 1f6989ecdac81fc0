import Glm53Serve.Lib.Correction
import Glm53Serve.Py.Replace
import Mathlib.Data.Rat.Floor

/-!
# The long-context benchmark

`bench-long-context.py` builds a prompt of a target number of tokens around three labelled codes,
asks for the codes, and looks for them in the answer. The number of filler records is found by
asking the server's tokenizer: a first guess from the tokens of one record, and up to four rounds of
correction.

## The model

The tokenizer is a function of the text, which may fail. The quotient that `round` gets is exact.

## What is proved

* `retrieval_test` — where the codes are in the prompt, and what the retrieval check accepts.
* `calibrate_converges` — the prompt comes within the tolerance of the target.
-/

namespace Glm53Serve.Sglang.LongContext

open Py Occurrences HalfEven

/-! ### The prompt -/

def filler : Text := "Neutral archival padding sentence for context capacity verification.\n".toList

def heading : Text :=
  ("GLM53_LONG_CONTEXT_CAPABILITY_TEST\n" ++
    "Read the full archival text. Three labelled retrieval codes occur once each.\n").toList

def question : Text :=
  ("\nReturn the values stored by BEGIN_NEEDLE, MIDDLE_NEEDLE, and " ++
    "END_NEEDLE, in that order, separated only by |. Do not add any other text.\n").toList

/-- `NEEDLES`. -/
inductive Needle where
  | begin
  | middle
  | last
  deriving DecidableEq, Repr

def Needle.label : Needle → Text
  | .begin => "BEGIN_NEEDLE".toList
  | .middle => "MIDDLE_NEEDLE".toList
  | .last => "END_NEEDLE".toList

def Needle.value : Needle → Text
  | .begin => "ALPHA_7319".toList
  | .middle => "MIDDLE_2846".toList
  | .last => "OMEGA_9052".toList

/-- `EXPECTED`. -/
def expected : Text := Needle.begin.value ++ '|' :: Needle.middle.value ++ '|' :: Needle.last.value

/-- The line of a needle. -/
def Needle.line (n : Needle) : Text := '\n' :: n.label ++ " stores ".toList ++
    n.value ++ ".\n".toList

/-- `FILLER * n`. -/
def fillers (n : ℕ) : Text := (List.replicate n filler).flatten

/-- The records before the first needle, and between one needle and the next. -/
def segments (repeats : ℕ) : ℕ × ℕ × ℕ :=
  (repeats * 5 / 100, repeats * 45 / 100, repeats * 45 / 100)

/-- `make_context`. -/
def makeContext (repeats : ℕ) : Text :=
  let (a, b, c) := segments repeats
  heading ++ fillers a ++ Needle.begin.line ++ fillers b ++ Needle.middle.line ++ fillers c ++
    Needle.last.line
    ++ fillers (repeats - (a + b + c)) ++ question

/-! ### The needles -/

theorem length_filler : filler.length = 69 := by decide +kernel

theorem length_fillers (n : ℕ) : (fillers n).length = 69 * n := by
  rw [fillers, List.length_flatten, List.map_replicate, List.sum_replicate_nat, length_filler,
    Nat.mul_comm]

/-- A letter that a record has not. -/
theorem count_fillers {c : Char} (h : filler.count c = 0) (n : ℕ) : (fillers n).count c = 0 := by
  rw [fillers, List.count_flatten, List.map_replicate, h]
  simp

/-- The needles of the prompt, in order. -/
def needles : List Needle := [.begin, .middle, .last]

/-- The records before a needle. -/
def recordsBefore (repeats : ℕ) : Needle → ℕ
  | .begin => repeats * 5 / 100
  | .middle => repeats * 5 / 100 + repeats * 45 / 100
  | .last => repeats * 5 / 100 + repeats * 45 / 100 + repeats * 45 / 100

/-- `needle_positions` of the report, in percent. -/
def position : Needle → ℕ
  | .begin => 5
  | .middle => 50
  | .last => 95

/-- The text of the prompt apart from the records. -/
def fixedText : Text := heading ++ Needle.begin.line ++ Needle.middle.line ++
    Needle.last.line ++ question

theorem count_makeContext {c : Char} (h : filler.count c = 0) (repeats : ℕ) :
    (makeContext repeats).count c = fixedText.count c := by
  simp only [makeContext, segments, fixedText, List.count_append, count_fillers h]
  omega

/-- The prompt behind the last needle. -/
def tail (repeats : ℕ) : Text :=
  fillers (repeats - (repeats * 5 / 100 + repeats * 45 / 100 + repeats * 45 / 100)) ++ question

/-- The line of a needle is behind its records. -/
theorem makeContext_split (repeats : ℕ) (n : Needle) :
    ∃ u w, makeContext repeats = u ++ n.line ++ w ∧
    u.length = heading.length + 69 * recordsBefore repeats n
      + ((needles.takeWhile (· ≠ n)).map (·.line.length)).sum := by
  cases n with
  | begin =>
    refine ⟨heading ++ fillers (repeats * 5 / 100),
      fillers (repeats * 45 / 100) ++ Needle.middle.line
      ++ fillers (repeats * 45 / 100) ++ Needle.last.line ++ tail repeats, ?_, ?_⟩
    · simp only [makeContext, segments, tail, List.append_assoc]
    · simp [needles, length_fillers, recordsBefore]
  | middle =>
    refine ⟨heading ++ fillers (repeats * 5 / 100) ++ Needle.begin.line ++
      fillers (repeats * 45 / 100),
      fillers (repeats * 45 / 100) ++ Needle.last.line ++ tail repeats, ?_, ?_⟩
    · simp only [makeContext, segments, tail, List.append_assoc]
    · simp [needles, length_fillers, recordsBefore]
      omega
  | last =>
    refine ⟨heading ++ fillers (repeats * 5 / 100) ++ Needle.begin.line ++
      fillers (repeats * 45 / 100)
      ++ Needle.middle.line ++ fillers (repeats * 45 / 100), tail repeats, ?_, ?_⟩
    · simp only [makeContext, segments, tail, List.append_assoc]
    · simp [needles, length_fillers, recordsBefore]
      omega

/-- A letter that stands once in the prompt, in the code. -/
def Needle.mark : Needle → Char
  | .begin => '7'
  | .middle => '8'
  | .last => '0'

theorem mark_spec (n : Needle) : n.mark ∈ n.value ∧ filler.count n.mark = 0 ∧
    fixedText.count n.mark = 1 := by
  cases n <;> decide +kernel

theorem value_infix_line (n : Needle) : n.value <:+: n.line :=
  ⟨'\n' :: n.label ++ " stores ".toList, ".\n".toList, rfl⟩

theorem value_ne_nil (n : Needle) : n.value ≠ [] := List.ne_nil_of_mem (mark_spec n).1

/-- Each code stands once in the prompt. -/
theorem occ_value (repeats : ℕ) (n : Needle) : occ n.value (makeContext repeats) = 1 := by
  obtain ⟨hmem, hfiller, hfixed⟩ := mark_spec n
  have hle : occ n.value (makeContext repeats) ≤ 1 := by
    rw [← hfixed, ← count_makeContext hfiller repeats]
    exact occ_le_count hmem _
  have hpos : 0 < occ n.value (makeContext repeats) := by
    obtain ⟨u, w, heq, -⟩ := makeContext_split repeats n
    rw [occ_pos_iff (value_ne_nil n), heq]
    exact (value_infix_line n).trans ⟨u, w, rfl⟩
  omega

theorem recordsBefore_position (repeats : ℕ) (n : Needle) :
    100 * recordsBefore repeats n ≤ position n * repeats ∧
      position n * repeats < 100 * (recordsBefore repeats n + 3) := by
  cases n <;> (simp only [recordsBefore, position]; omega)

/-! ### The answer -/

/-- `re.sub(r"[`\s]", "", content)`. -/
def normalize (content : Text) : Text := content.filter fun c => !(c == Char.ofNat 96 || isSpace c)

/-- `EXPECTED in normalized`. -/
def retrievalOk (content : Text) : Bool := isIn expected (normalize content)

/-- What passes has a stretch that is the expected answer but for white space and backticks. -/
theorem retrievalOk_iff (content : Text) :
    retrievalOk content = true ↔ ∃ piece, piece <:+: content ∧ normalize piece = expected := by
  rw [retrievalOk, isIn_iff (by decide), normalize, List.infix_filter_iff]
  simp only [normalize, eq_comm]

/-- The prompt has one bar. -/
theorem count_bar (repeats : ℕ) : (makeContext repeats).count '|' = 1 := by
  rw [count_makeContext (by decide +kernel)]
  decide +kernel

/-- No part of the prompt passes. -/
theorem echo_fails (repeats : ℕ) {content : Text} (h : content <:+: makeContext repeats) :
    retrievalOk content = false := by
  rw [Bool.eq_false_iff]
  intro hok
  obtain ⟨piece, hpiece, hnormal⟩ := (retrievalOk_iff content).mp hok
  have hbars : expected.count '|' ≤ 1 := by
    rw [← count_bar repeats, ← hnormal]
    exact ((List.filter_sublist).trans (hpiece.trans h).sublist).count_le '|'
  exact absurd hbars (by decide +kernel)

/-- **What the benchmark tests.** Each code stands in the prompt once, behind its share of the
records but for three of them, and the retrieval check accepts an answer iff a stretch of it is the
three codes between bars but for white space and backticks; no part of the prompt, given back as it
is, is accepted. -/
theorem retrieval_test (repeats : ℕ) :
    (∀ n : Needle, occ n.value (makeContext repeats) = 1 ∧
        (∃ u w, makeContext repeats = u ++ n.line ++ w ∧
          u.length = heading.length + 69 * recordsBefore repeats n
            + ((needles.takeWhile (· ≠ n)).map (·.line.length)).sum) ∧
        100 * recordsBefore repeats n ≤ position n * repeats ∧
        position n * repeats < 100 * (recordsBefore repeats n + 3)) ∧
      (∀ content, retrievalOk content = true ↔
        ∃ piece, piece <:+: content ∧ normalize piece = expected) ∧
      ∀ content, content <:+: makeContext repeats → retrievalOk content = false :=
  ⟨fun n => ⟨occ_value repeats n, makeContext_split repeats n, recordsBefore_position repeats n⟩,
    retrievalOk_iff, fun _ h => echo_fails repeats h⟩

/-! ### Calibration -/

/-- What `calibrate_context` raises. -/
inductive CalibrationError (E : Type*) where
  /-- `filler tokenized to zero tokens`. -/
  | zeroTokens
  | request (e : E)

section Calibrate

variable {E : Type*} (tokenize : Text → Except E ℕ) (target : ℕ)

/-- `max(64, target_tokens // 2000)`. -/
def tolerance : ℕ := max 64 (target / 2000)

/-- The rounds of correction: what is left of the four, and what the last one has left. -/
def rounds (unit : ℕ) : ℕ → Text × ℕ → ℕ → Except (CalibrationError E) (Text × ℕ × ℕ)
  | 0, (context, actual), repeats => .ok (context, actual, repeats)
  | n + 1, _, repeats =>
    match tokenize (makeContext repeats) with
    | .error e => .error (.request e)
    | .ok actual =>
      let delta : ℤ := target - actual
      if |delta| ≤ tolerance target then .ok (makeContext repeats, actual, repeats)
      else rounds unit n (makeContext repeats, actual)
        (max 1 ((repeats : ℤ) + roundEven ((delta : ℚ) / unit))).toNat

/-- `calibrate_context`: the prompt, its tokens, and the number of filler records. -/
def calibrateContext : Except (CalibrationError E) (Text × ℕ × ℕ) :=
  match tokenize filler with
  | .error e => .error (.request e)
  | .ok unit =>
    if unit < 1 then .error .zeroTokens
    else
      match tokenize (makeContext 0) with
      | .error e => .error (.request e)
      | .ok overhead =>
        rounds tokenize target unit 4 ([], 0) (max 1 (((target : ℤ) - overhead) / unit)).toNat

/-- The tokenizer is near an affine law on the prompts: a record costs about as much in the prompt
as alone. -/
structure NearAffine (unit : ℕ) (count : ℕ → ℕ) (c v : ℚ) : Prop where
  filler : tokenize filler = .ok unit
  context : ∀ r, tokenize (makeContext r) = .ok (count r)
  pos : 1 ≤ unit
  le : unit ≤ 16
  slope : |v - unit| ≤ unit / 8
  near : ∀ r, |(count r : ℚ) - (c + v * r)| ≤ 8

variable {tokenize target} {unit : ℕ} {count : ℕ → ℕ} {c v : ℚ}

open Correction

namespace NearAffine

variable (h : NearAffine tokenize unit count c v)

include h

theorem unit_pos : (0 : ℚ) < unit := by exact_mod_cast h.pos

theorem slope_nonneg : 0 ≤ v := by
  have hslope := (abs_le.mp h.slope).1
  have hunit := h.unit_pos
  linarith

theorem slope_le : v ≤ 18 := by
  have hslope := (abs_le.mp h.slope).2
  have hunit : (unit : ℚ) ≤ 16 := by exact_mod_cast h.le
  linarith

theorem ratio : |1 - v / unit| ≤ 1 / 8 := by
  have hunit := h.unit_pos
  rw [show 1 - v / unit =
    -((v - unit) / unit) by field_simp; ring, abs_neg, abs_div, abs_of_pos hunit,
    div_le_iff₀ hunit]
  linarith [h.slope]

theorem ratio_le : v / unit ≤ 9 / 8 := by
  rw [div_le_iff₀ h.unit_pos]
  linarith [(abs_le.mp h.slope).2]

/-- The next number of records is nearer to the target, up to a constant. -/
theorem off_next (hlow : c + v ≤ target) (r : ℕ) :
    |off (target : ℚ) c v (max 1 ((r : ℤ) + roundEven (((target : ℤ) - count r : ℤ) / unit : ℚ)))|
      ≤ |off (target : ℚ) c v r| / 8 + 18 := by
  have hclip := abs_off_max
    (r := (r : ℤ) + roundEven (((target : ℤ) - count r : ℤ) / unit : ℚ)) (l := 1) h.slope_nonneg
    (t := (target : ℚ)) (c := c) (by simpa using hlow)
  have hround := abs_off_round (t := (target : ℚ)) (r := (r : ℤ)) h.unit_pos h.slope_nonneg
    (n := (count r : ℚ)) (c := c) (e := 8) (by simpa using h.near r)
  have hcast : (((target : ℤ) - count r : ℤ) / unit : ℚ) =
    ((target : ℚ) - count r) / unit := by push_cast; ring
  rw [hcast] at hclip ⊢
  have hratio := mul_le_mul_of_nonneg_right h.ratio (abs_nonneg (off (target : ℚ) c v r))
  linarith [h.ratio_le, h.slope_le]

end NearAffine

theorem within_tolerance {a : ℚ} (ha : a ≤ target / 4096 + 29) : a ≤ tolerance target := by
  have hdiv : (target : ℚ) < 2000 *
    ((target / 2000 : ℕ) + 1 : ℚ) := by exact_mod_cast Nat.lt_mul_div_succ target (by norm_num)
  unfold tolerance
  push_cast
  by_cases h : target < 128000
  · refine le_max_of_le_left ?_
    have htarget : (target : ℚ) < 128000 := by exact_mod_cast h
    linarith
  · refine le_max_of_le_right ?_
    have htarget : (128000 : ℚ) ≤ target := by exact_mod_cast not_lt.mp h
    linarith

theorem round_within (h : NearAffine tokenize unit count c v) (n : ℕ) (last : Text × ℕ) {r : ℕ}
    (hr : |(target : ℤ) - count r| ≤ tolerance target) :
    rounds tokenize target unit (n + 1) last r = .ok (makeContext r, count r, r) := by
  simp only [rounds, h.context, if_pos hr]

theorem round_beyond (h : NearAffine tokenize unit count c v) (n : ℕ) (last : Text × ℕ) {r : ℕ}
    (hr : ¬|(target : ℤ) - count r| ≤ tolerance target) :
    rounds tokenize target unit (n + 1) last r = rounds tokenize target unit n
      (makeContext r, count r)
      (max 1 ((r : ℤ) + roundEven (((target : ℤ) - count r : ℤ) / unit : ℚ))).toNat := by
  rw [rounds]
  simp only [h.context, if_neg hr]

theorem toNat_max_one (k : ℤ) : 1 ≤ (max 1 k).toNat ∧ ((max 1 k).toNat : ℤ) = max 1 k := by
  have hone : 1 ≤ max 1 k := le_max_left 1 k
  exact ⟨by omega, Int.toNat_of_nonneg (by omega)⟩

/-- With `n + 1` rounds left, a number of records that is not too far off comes within the
tolerance. -/
theorem rounds_converge (h : NearAffine tokenize unit count c v) (hlow : c + v ≤ target) (n : ℕ) :
    ∀ (last : Text × ℕ) (r : ℕ), 1 ≤ r → |off
    (target : ℚ) c v r| - 144 / 7 ≤ 8 ^ n * (target / 4096 + 1 / 64) →
      ∃ r', 1 ≤ r' ∧ rounds tokenize target unit (n + 1) last r =
        .ok (makeContext r', count r', r') ∧
        |(target : ℤ) - count r'| ≤ tolerance target := by
  induction n with
  | zero =>
    intro last r hr hoff
    have hcount : |(target : ℤ) - count r| ≤ (tolerance target : ℤ) := by
      have hsplit : ((target : ℚ) - count r) = off (target : ℚ) c v r -
          (count r - (c + v * r)) := by
        unfold off
        push_cast
        ring
      have habs : |(target : ℚ) - count r| ≤ tolerance target := by
        refine within_tolerance ?_
        have hsub := abs_sub (off (target : ℚ) c v r) (count r - (c + v * r))
        rw [← hsplit] at hsub
        linarith [h.near r]
      exact_mod_cast habs
    exact ⟨r, hr, round_within h 0 last hcount, hcount⟩
  | succ n ih =>
    intro last r hr hoff
    by_cases hcount : |(target : ℤ) - count r| ≤ (tolerance target : ℤ)
    · exact ⟨r, hr, round_within h _ last hcount, hcount⟩
    · rw [round_beyond h _ last hcount]
      set next := max 1 ((r : ℤ) + roundEven (((target : ℤ) - count r : ℤ) / unit : ℚ)) with hnext
      obtain ⟨hone, hcast⟩ :=
        toNat_max_one ((r : ℤ) + roundEven (((target : ℤ) - count r : ℤ) / unit : ℚ))
      rw [← hnext] at hone hcast
      refine ih _ _ hone ?_
      rw [hcast]
      have hshrink := sub_fixed_le (by norm_num) (h.off_next hlow r)
      rw [pow_succ] at hoff
      rw [← hnext] at hshrink
      linarith

/-- **The calibration converges.** If a filler record costs at most 16 tokens alone and within an
eighth of that in the prompt, and the prompt is within 8 tokens of an affine law in its records that
one record does not take beyond the target, then the four rounds end with a prompt whose tokens are
within the tolerance of the target, and it is the prompt of the number of records that is returned
with it. -/
theorem calibrate_converges (h : NearAffine tokenize unit count c v) (hlow : c + v ≤ target) :
    ∃ r, 1 ≤ r ∧ calibrateContext tokenize target = .ok (makeContext r, count r, r) ∧
      |(target : ℤ) - count r| ≤ tolerance target := by
  obtain ⟨hone, hcast⟩ := toNat_max_one (((target : ℤ) - count 0) / unit)
  have hrun : calibrateContext tokenize target
      = rounds tokenize target unit (3 + 1) ([], 0)
          (max 1 (((target : ℤ) - count 0) / unit)).toNat := by
    simp only [calibrateContext, h.filler, if_neg (Nat.not_lt.mpr h.pos), h.context]
  rw [hrun]
  refine rounds_converge h hlow 3 _ _ hone ?_
  rw [hcast]
  have hnear : |(count 0 : ℚ) - c| ≤ 8 := by simpa using h.near 0
  have hfloor := abs_off_floor (t := (target : ℚ)) h.unit_pos h.slope_nonneg hnear
  have hdiv : ⌊((target : ℚ) - count 0) / unit⌋ = ((target : ℤ) - count 0) / unit := by
    have hfloordiv := Rat.floor_intCast_div_natCast ((target : ℤ) - count 0) unit
    push_cast at hfloordiv
    exact hfloordiv
  rw [hdiv] at hfloor
  have hclip := abs_off_max (r := ((target : ℤ) - count 0) / unit) (l := 1) h.slope_nonneg
    (t := (target : ℚ))
    (c := c) (by simpa using hlow)
  have hslope := h.slope_nonneg
  have hbase : -8 ≤ c := by linarith [(abs_le.mp hnear).2, Nat.cast_nonneg (α := ℚ) (count 0)]
  have hratio := mul_le_mul_of_nonneg_right h.ratio (abs_nonneg ((target : ℚ) - c))
  have habs : |(target : ℚ) - c| = target - c := abs_of_nonneg (by linarith)
  rw [habs] at hratio hfloor
  linarith [h.ratio_le, h.slope_le]

end Calibrate

/-! ### A tokenizer of seven letters a token -/

theorem length_makeContext (repeats : ℕ) :
    (makeContext repeats).length = fixedText.length + 69 * repeats := by
  simp only [makeContext, segments, fixedText, List.length_append, length_fillers]
  omega

def sevenths (t : Text) : Except Unit ℕ := .ok (t.length / 7)

theorem nearAffine_sevenths :
    NearAffine sevenths 9 (fun r => (makeContext r).length / 7) (fixedText.length / 7)
      (69 / 7) where
  filler := by rw [sevenths, length_filler]
  context := fun _ => rfl
  pos := by norm_num
  le := by norm_num
  slope := by rw [abs_le]; constructor <;> norm_num
  near := by
    intro r
    have hlow := Nat.div_mul_le_self (makeContext r).length 7
    have hhigh := Nat.lt_div_mul_add (a := (makeContext r).length) (b := 7) (by norm_num)
    rw [length_makeContext] at *
    have hlow' : (((fixedText.length + 69 * r) / 7 : ℕ) : ℚ) * 7 ≤ fixedText.length +
      69 * r := by exact_mod_cast hlow
    have hhigh' : (fixedText.length + 69 * r : ℚ) <
        ((fixedText.length + 69 * r) / 7 : ℕ) * 7 + 7 := by
      exact_mod_cast hhigh
    rw [abs_le]
    constructor <;> linarith

theorem length_fixedText : fixedText.length ≤ 700 := by decide +kernel

theorem calibrate_converges_sevenths :
    ∃ r, 1 ≤ r ∧ calibrateContext sevenths 2048 =
      .ok (makeContext r, (makeContext r).length / 7, r) ∧
      |((2048 : ℕ) : ℤ) - ((makeContext r).length / 7 : ℕ)| ≤ tolerance 2048 := by
  have hlow : ((fixedText.length : ℚ) / 7 + 69 / 7) ≤ ((2048 : ℕ) : ℚ) := by
    have hlength : (fixedText.length : ℚ) ≤ 700 := by exact_mod_cast length_fixedText
    push_cast
    linarith
  exact calibrate_converges nearAffine_sevenths hlow

end Glm53Serve.Sglang.LongContext
