import Glm53Serve.Launcher.IntList
import Mathlib.Data.List.Sort
import Mathlib.Data.List.Infix
import Mathlib.Tactic.IntervalCases

/-!
# The capture sizes of the launcher

`start.sh` validates the set of the adaptive verify widths and builds the list of the
batch sizes for which the server captures CUDA graphs (`--cudagraph-capture-sizes`).
A batch of `s` requests that verify `k` drafts each is a decode of size `s * (k + 1)`.

## The model

Variables are texts, as in the shell; the two bounds that the list is computed from are
naturals. The list is the list of its numbers, in the order they are written.

## What is proved

* `mem_adaptiveSizes` — the sizes of the list.
* `covers_one` to `covers_seven` — for which bounds the list covers a width.
* `covers_iff` — the list has every decode size of a set of widths exactly when the set and
  the bounds are like those that the list was written for.
-/

namespace Glm53Serve.Launcher

open Py

/-! ### The list of sizes -/

/-- What the capture sizes are computed from. -/
structure Launch where
  enforceEager : Text := ['0']
  extraArgs : Text := []
  specMethod : Text
  /-- `GLM53_ADAPTIVE_K`. -/
  adaptiveK : Text := ['o', 'f', 'f']
  /-- `GLM53_ADAPTIVE_K_CAPTURE`. -/
  adaptiveKCapture : Text := ['0']
  /-- `GLM53_ADAPTIVE_K_CAPTURE_MAX_BATCH`. -/
  captureMaxBatch : ℕ := 4
  maxNumSeqs : ℕ := 4

/-- `--cudagraph-capture-sizes`. -/
def sizesFlag : Text :=
  ['-', '-', 'c', 'u', 'd', 'a', 'g', 'r', 'a', 'p', 'h', '-', 'c', 'a', 'p', 't', 'u', 'r', 'e',
    '-', 's', 'i', 'z', 'e', 's']

/-- `case " ${EXTRA_ARGS:-} " in *" --cudagraph-capture-sizes "*|*" cudagraph-capture-sizes "*`. -/
def Launch.ownSizes (l : Launch) : Prop :=
  ' ' :: sizesFlag ++ [' '] <:+: ' ' :: l.extraArgs ++ [' '] ∨
    ' ' :: sizesFlag.drop 2 ++ [' '] <:+: ' ' :: l.extraArgs ++ [' ']

instance (l : Launch) : Decidable l.ownSizes := inferInstanceAs (Decidable (_ ∨ _))

/-- `case "$GLM53_ADAPTIVE_K:$GLM53_ADAPTIVE_K_CAPTURE" in ema:*|on:*|1:*|*:1|*:on|*:true|*:yes`. -/
def Launch.adaptive (l : Launch) : Prop :=
  (∃ m ∈ [['e', 'm', 'a'], ['o', 'n'], ['1']],
    m ++ [':'] <+: l.adaptiveK ++ ':' :: l.adaptiveKCapture) ∨
    ∃ c ∈ [['1'], ['o', 'n'], ['t', 'r', 'u', 'e'], ['y', 'e', 's']],
      ':' :: c <:+ l.adaptiveK ++ ':' :: l.adaptiveKCapture

instance (l : Launch) : Decidable l.adaptive := inferInstanceAs (Decidable (_ ∨ _))

/-- `seq a b`. -/
def seq (a b : ℕ) : List ℕ := List.range' a (b + 1 - a)

/-- `uniq`: of equal neighbours only one is kept. -/
def uniq : List ℕ → List ℕ
  | [] => []
  | [a] => [a]
  | a :: b :: l => if a = b then uniq (b :: l) else a :: uniq (b :: l)

/-- `sort -n | uniq`. -/
def sortUniq (l : List ℕ) : List ℕ := uniq (l.insertionSort (· ≤ ·))

/-- The list for `SPEC_METHOD=dflash`. -/
def Launch.dflashSizes (l : Launch) : List ℕ :=
  let cap := [1, 2, 4, 8, 16, 24, 32]
  let cap := if l.adaptive then cap ++ (seq 1 l.captureMaxBatch).flatMap fun s =>
    [s * 3, s * 5] else cap
  let cap := if 4 < l.maxNumSeqs then cap ++ (seq 5 l.maxNumSeqs).map (· * 8) else cap
  sortUniq cap

/-- The sizes that `start.sh` adds to `EXTRA_ARGS`; `none` where it leaves them as they are. -/
def Launch.captureSizes (l : Launch) : Option (List ℕ) :=
  if l.enforceEager = ['1'] ∨ l.ownSizes then none
  else if l.specMethod = ['d', 'f', 'l', 'a', 's', 'h'] then some l.dflashSizes
  else some [1, 2, 3, 4, 6, 8, 12]

/-! ### Which sizes are in the list -/

@[simp] theorem mem_seq {a b n : ℕ} : n ∈ seq a b ↔ a ≤ n ∧ n ≤ b := by
  rw [seq, List.mem_range'_1]
  omega

@[simp] theorem mem_uniq {a : ℕ} {l : List ℕ} : a ∈ uniq l ↔ a ∈ l := by
  induction l using uniq.induct with
  | case1 => rfl
  | case2 b => rfl
  | case3 b l ih => rw [uniq, if_pos rfl, ih, List.mem_cons (a := a) (b := b) (l := b :: l),
      List.mem_cons, or_self_left]
  | case4 b c l hne ih => rw [uniq, if_neg hne, List.mem_cons, ih, List.mem_cons (l := c :: l)]

theorem mem_sortUniq {a : ℕ} {l : List ℕ} : a ∈ sortUniq l ↔ a ∈ l := by
  rw [sortUniq, mem_uniq, List.mem_insertionSort]

/-- `n` is in the list for batches up to `maxb` and `seqs` sequences: one of the stock sizes, a
row of 3 or 5 tokens, or a row of 8 tokens above the stock ones. -/
def Listed (maxb seqs n : ℕ) : Prop :=
  n ∈ [1, 2, 4, 8, 16, 24, 32] ∨ (n % 3 = 0 ∧ 3 ≤ n ∧ n ≤ 3 * maxb) ∨
    (n % 5 = 0 ∧ 5 ≤ n ∧ n ≤ 5 * maxb) ∨ (n % 8 = 0 ∧ 40 ≤ n ∧ n ≤ 8 * seqs)

theorem mem_adaptiveSizes {l : Launch} (h : l.adaptive) {n : ℕ} :
    n ∈ l.dflashSizes ↔ Listed l.captureMaxBatch l.maxNumSeqs n := by
  have h35 : (∃ s, (1 ≤ s ∧ s ≤ l.captureMaxBatch) ∧ n ∈ [s * 3, s * 5]) ↔
      (n % 3 = 0 ∧ 3 ≤ n ∧ n ≤ 3 * l.captureMaxBatch) ∨
        (n % 5 = 0 ∧ 5 ≤ n ∧ n ≤ 5 * l.captureMaxBatch) := by
    constructor
    · rintro ⟨s, hs, hn⟩
      simp only [List.mem_cons, List.not_mem_nil, or_false] at hn
      omega
    · rintro (hn | hn)
      · exact ⟨n / 3, by omega, by simp; omega⟩
      · exact ⟨n / 5, by omega, by simp; omega⟩
  have h8 : (∃ c, (5 ≤ c ∧ c ≤ l.maxNumSeqs) ∧ c * 8 = n) ↔
      n % 8 = 0 ∧ 40 ≤ n ∧ n ≤ 8 * l.maxNumSeqs := by
    constructor
    · rintro ⟨c, hc, rfl⟩
      omega
    · intro hn
      exact ⟨n / 8, by omega, by omega⟩
  simp only [Launch.dflashSizes, mem_sortUniq, if_pos h, Listed]
  split_ifs with hN
  · rw [List.mem_append, List.mem_append, List.mem_flatMap, List.mem_map]
    simp only [mem_seq, h35, h8, or_assoc]
  · rw [List.mem_append, List.mem_flatMap]
    simp only [mem_seq, h35]
    have hno : ¬ (n % 8 = 0 ∧ 40 ≤ n ∧ n ≤ 8 * l.maxNumSeqs) := by omega
    rw [or_iff_left hno]

/-! ### Which widths are covered -/

/-- The list has the sizes of all batches up to `maxb` that verify `k` drafts. -/
def Covers (maxb seqs k : ℕ) : Prop := ∀ s, 1 ≤ s → s ≤ maxb → Listed maxb seqs (s * (k + 1))

section Widths

variable {maxb seqs : ℕ}

theorem covers_one : Covers maxb seqs 1 ↔ maxb ≤ 6 := by
  refine ⟨fun h => ?_, fun h s h1 hs => ?_⟩
  · by_contra hb
    have := h 7 (by omega) (by omega)
    simp only [Listed, List.mem_cons, List.not_mem_nil, or_false] at this
    omega
  · have hs6 := hs.trans h
    simp only [Listed, List.mem_cons, List.not_mem_nil, or_false]
    interval_cases s <;> omega

theorem covers_two : Covers maxb seqs 2 := by
  intro s h1 hs
  simp only [Listed]
  omega

theorem covers_three : Covers maxb seqs 3 ↔ maxb ≤ 2 ∨ (4 ≤ maxb ∧ maxb ≤ 6) := by
  refine ⟨fun h => ?_, fun h s h1 hs => ?_⟩
  · by_contra hb
    have h3 := h 3 (by omega) (by omega)
    have h7 := h 7 (by omega)
    simp only [Listed, List.mem_cons, List.not_mem_nil, or_false] at h3 h7
    omega
  · simp only [Listed, List.mem_cons, List.not_mem_nil, or_false]
    omega

theorem covers_four : Covers maxb seqs 4 := by
  intro s h1 hs
  simp only [Listed]
  omega

theorem not_covers_five (hb : 1 ≤ maxb) : ¬ Covers maxb seqs 5 := by
  intro h
  -- a batch of 1, 2, 3 or 6 fails up to 7, and the largest odd batch above
  have h1 := h 1 le_rfl hb
  have h2 := h 2 (by omega)
  have h3 := h 3 (by omega)
  have h6 := h 6 (by omega)
  have hodd := h ((maxb - 1) / 2 * 2 + 1) (by omega) (by omega)
  simp only [Listed, List.mem_cons, List.not_mem_nil, or_false] at h1 h2 h3 h6 hodd
  omega

theorem not_covers_six (hb : 1 ≤ maxb) : ¬ Covers maxb seqs 6 := by
  intro h
  have h1 := h 1 le_rfl hb
  simp only [Listed, List.mem_cons, List.not_mem_nil, or_false] at h1
  omega

theorem covers_seven : Covers maxb seqs 7 ↔ maxb ≤ max 4 seqs := by
  refine ⟨fun h => ?_, fun h s h1 hs => ?_⟩
  · by_contra hb
    have := h maxb (by omega) le_rfl
    simp only [Listed, List.mem_cons, List.not_mem_nil, or_false] at this
    omega
  · simp only [Listed, List.mem_cons, List.not_mem_nil, or_false]
    omega

end Widths

/-- The sets and bounds that the list is right for: no width of 5 or 6, and batches that are
small enough for the widths 1, 3 and 7. -/
structure ListFits (set : List ℕ) (maxb seqs : ℕ) : Prop where
  one : 1 ∈ set → maxb ≤ 6
  three : 3 ∈ set → maxb ≤ 2 ∨ (4 ≤ maxb ∧ maxb ≤ 6)
  five : 5 ∉ set
  six : 6 ∉ set
  seven : 7 ∈ set → maxb ≤ max 4 seqs

/-- For every validated set, the list that `start.sh` builds has every decode size of up to 8
tokens a row exactly when the set and the bounds fit it. -/
theorem covers_iff {l : Launch} {sizes : List ℕ}
    (hd : l.specMethod = ['d', 'f', 'l', 'a', 's', 'h'])
    (ha : l.adaptive) (hs : l.captureSizes = some sizes) (hb : 1 ≤ l.captureMaxBatch)
    {value : Text} (hv : validateIntList value 64 = .ok ()) :
    (∀ s k, 1 ≤ s → s ≤ l.captureMaxBatch → k ∈ intList value → k + 1 ≤ 8 → s * (k + 1) ∈ sizes) ↔
      ListFits (intList value) l.captureMaxBatch l.maxNumSeqs := by
  obtain rfl : l.dflashSizes = sizes := by
    rw [Launch.captureSizes, if_pos hd] at hs
    split_ifs at hs
    exact Option.some.inj hs
  have hcov : (∀ s k, 1 ≤ s → s ≤ l.captureMaxBatch → k ∈ intList value → k + 1 ≤ 8 →
      s * (k + 1) ∈ l.dflashSizes) ↔
      ∀ k ∈ intList value, k + 1 ≤ 8 → Covers l.captureMaxBatch l.maxNumSeqs k :=
    ⟨fun h k hk h8 s h1 hs => (mem_adaptiveSizes ha).1 (h s k h1 hs hk h8),
      fun h s k h1 hs hk h8 => (mem_adaptiveSizes ha).2 (h k hk h8 s h1 hs)⟩
  rw [hcov]
  constructor
  · intro h
    exact ⟨fun hk => covers_one.1 (h 1 hk (by decide)), fun hk =>
      covers_three.1 (h 3 hk (by decide)),
      fun hk => not_covers_five hb (h 5 hk (by decide)),
      fun hk => not_covers_six hb (h 6 hk (by decide)), fun hk =>
        covers_seven.1 (h 7 hk (by decide))⟩
  · intro h k hk h8
    have hpos := pos_of_validated hv hk
    have h7 : k < 8 := by omega
    interval_cases k
    · exact covers_one.2 (h.one hk)
    · exact covers_two
    · exact covers_three.2 (h.three hk)
    · exact covers_four
    · exact absurd hk h.five
    · exact absurd hk h.six
    · exact covers_seven.2 (h.seven hk)

/-- The launch with the policy on and the set `2,6,7`. -/
def sixLaunch : Launch :=
  { specMethod := ['d', 'f', 'l', 'a', 's', 'h'], adaptiveK := ['e', 'm', 'a'] }

theorem covers_iff_six :
    (∀ s k, 1 ≤ s → s ≤ 4 → k ∈ intList ['2', ',', '6', ',', '7'] → k + 1 ≤ 8 →
        s * (k + 1) ∈ sixLaunch.dflashSizes) ↔
      ListFits (intList ['2', ',', '6', ',', '7']) 4 4 :=
  covers_iff (l := sixLaunch) rfl (by decide) (by decide) (by decide) (by decide)

/-- With the set `2,6,7` a single request that verifies 6 drafts is a decode of size 7, which is
not captured. -/
theorem six_not_covered :
    validateIntList ['2', ',', '6', ',', '7'] 64 = .ok () ∧ sixLaunch.adaptive ∧
      sixLaunch.captureSizes = some [1, 2, 3, 4, 5, 6, 8, 9, 10, 12, 15, 16, 20, 24, 32] ∧
      ¬ ∀ s k, 1 ≤ s → s ≤ sixLaunch.captureMaxBatch → k ∈ intList ['2', ',', '6', ',', '7'] →
        k + 1 ≤ 8 → s * (k + 1) ∈ [1, 2, 3, 4, 5, 6, 8, 9, 10, 12, 15, 16, 20, 24, 32] := by
  refine ⟨by decide, by decide, by decide, fun h => ?_⟩
  have h7 := h 1 6 le_rfl (by decide) (by decide) (by decide)
  revert h7
  decide

end Glm53Serve.Launcher
