import Mathlib

/-!
# Ranks and medians

A list in increasing order, its elements by rank, and its median: the middle element, or
the mean of the two middle ones.

## What is proved

* `ranked_le_iff` — the element of rank `i` is at most `c` exactly if more than `i`
  elements are.
* `median_perm`, `median_map_mul` — the median of a permutation, and of a scaled list.
* `half_le_countP_of_median_le`, `median_le_of_half_lt` — a median of at most `c` means
  that half of the elements are at most `c`, and follows from more than half being so.
-/

namespace Rank

section Order

variable {α β : Type*} [LinearOrder α] [LinearOrder β] {xs ys : List α} {c : α}

/-- The elements in increasing order. -/
def ranked (xs : List α) : List α := xs.insertionSort (· ≤ ·)

@[simp] theorem ranked_nil : ranked ([] : List α) = [] := rfl

theorem ranked_perm (xs : List α) : (ranked xs).Perm xs := List.perm_insertionSort (· ≤ ·) xs

@[simp] theorem length_ranked (xs : List α) : (ranked xs).length = xs.length :=
  (ranked_perm xs).length_eq

theorem ranked_pairwise (xs : List α) : (ranked xs).Pairwise (· ≤ ·) :=
  List.pairwise_insertionSort (· ≤ ·) xs

theorem ranked_congr (h : xs.Perm ys) : ranked xs = ranked ys :=
  (((ranked_perm xs).trans h).trans (ranked_perm ys).symm).eq_of_pairwise'
    (ranked_pairwise xs) (ranked_pairwise ys)

theorem ranked_map {f : α → β} (hf : StrictMono f) (xs : List α) :
    ranked (xs.map f) = (ranked xs).map f := by
  have hs : ((ranked xs).map f).Pairwise (· ≤ ·) :=
    (ranked_pairwise xs).map f fun _ _ h => hf.monotone h
  exact ((ranked_perm _).trans ((ranked_perm xs).map f).symm).eq_of_pairwise'
    (ranked_pairwise _) hs

/-- In a sorted list, the elements up to `c` come first. -/
theorem sorted_le_iff (h : xs.Pairwise (· ≤ ·)) {i : ℕ} (hi : i < xs.length) :
    xs[i] ≤ c ↔ i < xs.countP (· ≤ c) := by
  induction xs generalizing i with
  | nil => cases hi
  | cons x xs ih =>
    obtain ⟨hx, hxs⟩ := List.pairwise_cons.1 h
    by_cases hc : x ≤ c
    · rw [List.countP_cons_of_pos (by simpa using hc)]
      cases i with
      | zero => simp [hc]
      | succ i =>
        rw [List.getElem_cons_succ, ih hxs (Nat.lt_of_succ_lt_succ hi), Nat.add_lt_add_iff_right]
    · -- everything that follows is above `c`
      have hall : ∀ y ∈ x :: xs, ¬ y ≤ c := by
        intro y hy hyc
        rcases List.mem_cons.1 hy with rfl | hy
        · exact hc hyc
        · exact hc ((hx y hy).trans hyc)
      have hzero : (x :: xs).countP (· ≤ c) = 0 :=
        List.countP_eq_zero.2 fun y hy => by simpa using hall y hy
      rw [hzero]
      exact iff_of_false (hall _ (List.getElem_mem hi)) (Nat.not_lt_zero i)

/-- The element of rank `i` is at most `c` exactly if more than `i` elements are. -/
theorem ranked_le_iff {i : ℕ} {x : α} (h : (ranked xs)[i]? = some x) :
    x ≤ c ↔ i < xs.countP (· ≤ c) := by
  obtain ⟨hi, rfl⟩ := List.getElem?_eq_some_iff.1 h
  rw [sorted_le_iff (ranked_pairwise xs) hi, (ranked_perm xs).countP_eq]

theorem exists_ranked {i : ℕ} (hi : i < xs.length) : ∃ x, (ranked xs)[i]? = some x :=
  ⟨_, List.getElem?_eq_getElem (by rwa [length_ranked])⟩

theorem ranked_le_ranked {i j : ℕ} (hij : i ≤ j) {a b : α} (ha : (ranked xs)[i]? = some a)
    (hb : (ranked xs)[j]? = some b) : a ≤ b := by
  rw [ranked_le_iff ha]
  exact hij.trans_lt ((ranked_le_iff hb).1 le_rfl)

/-- The two middle elements of a list. -/
theorem exists_middle (hne : xs ≠ []) :
    ∃ a b, (ranked xs)[xs.length / 2 - 1]? = some a ∧ (ranked xs)[xs.length / 2]? = some b := by
  have hpos := List.length_pos_iff.2 hne
  have hhalf : xs.length / 2 - 1 < xs.length := by omega
  obtain ⟨a, ha⟩ := exists_ranked hhalf
  obtain ⟨b, hb⟩ := exists_ranked (Nat.div_lt_self hpos one_lt_two)
  exact ⟨a, b, ha, hb⟩

end Order

variable {K : Type*} [Field K] [LinearOrder K] {xs ys : List K} {m c : K}

/-- The median; none of nothing. -/
def median (xs : List K) : Option K :=
  let ordered := ranked xs
  let half := ordered.length / 2
  if ordered.length % 2 = 1 then ordered[half]?
  else
    match ordered[half - 1]?, ordered[half]? with
    | some a, some b => some ((a + b) / 2)
    | _, _ => none

@[simp] theorem median_nil : median ([] : List K) = none := by simp [median]

theorem median_perm (h : xs.Perm ys) : median xs = median ys := by
  rw [median, median, ranked_congr h]

/-- The middle element of an odd number. -/
theorem median_odd (h : xs.length % 2 = 1) : median xs = (ranked xs)[xs.length / 2]? := by
  simp only [median, length_ranked, h, if_pos]

/-- The mean of the two middle elements of an even number. -/
theorem median_even (h : xs.length % 2 = 0) {a b : K}
    (ha : (ranked xs)[xs.length / 2 - 1]? = some a) (hb : (ranked xs)[xs.length / 2]? = some b) :
    median xs = some ((a + b) / 2) := by
  simp only [median, length_ranked, h, ha, hb, Nat.zero_ne_one, if_false]

theorem exists_median (hne : xs ≠ []) : ∃ m, median xs = some m := by
  obtain ⟨a, b, ha, hb⟩ := exists_middle hne
  rcases Nat.mod_two_eq_zero_or_one xs.length with h | h
  · exact ⟨_, median_even h ha hb⟩
  · exact ⟨b, (median_odd h).trans hb⟩

theorem ne_nil_of_median (h : median xs = some m) : xs ≠ [] := by
  rintro rfl
  rw [median_nil] at h
  cases h

variable [IsStrictOrderedRing K]

/-- A median of at most `c`: half of the elements, rounded up, are at most `c`. -/
theorem half_le_countP_of_median_le (h : median xs = some m) (hm : m ≤ c) :
    (xs.length + 1) / 2 ≤ xs.countP (· ≤ c) := by
  obtain ⟨a, b, ha, hb⟩ := exists_middle (ne_nil_of_median h)
  have hpos := List.length_pos_iff.2 (ne_nil_of_median h)
  rcases Nat.mod_two_eq_zero_or_one xs.length with hmod | hmod
  · -- the lower of the two middle elements is at most their mean
    obtain rfl : (a + b) / 2 = m := Option.some.inj ((median_even hmod ha hb).symm.trans h)
    have hab : a ≤ b := ranked_le_ranked (Nat.sub_le _ 1) ha hb
    have hac : a ≤ c := by linarith
    have := (ranked_le_iff ha).1 hac
    omega
  · obtain rfl : b = m := Option.some.inj (hb.symm.trans ((median_odd hmod).symm.trans h))
    have := (ranked_le_iff hb).1 hm
    omega

/-- If more than half of the elements are at most `c`, so is the median. -/
theorem median_le_of_half_lt (h : median xs = some m) (hc : xs.length < 2 * xs.countP (· ≤ c)) :
    m ≤ c := by
  obtain ⟨a, b, ha, hb⟩ := exists_middle (ne_nil_of_median h)
  have hbc : b ≤ c := (ranked_le_iff hb).2 (by omega)
  rcases Nat.mod_two_eq_zero_or_one xs.length with hmod | hmod
  · obtain rfl : (a + b) / 2 = m := Option.some.inj ((median_even hmod ha hb).symm.trans h)
    have hab : a ≤ b := ranked_le_ranked (Nat.sub_le _ 1) ha hb
    linarith
  · obtain rfl : b = m := Option.some.inj (hb.symm.trans ((median_odd hmod).symm.trans h))
    exact hbc

/-- Scaling the elements scales the median. -/
theorem median_map_mul {r : K} (hr : 0 < r) (xs : List K) :
    median (xs.map (r * ·)) = (median xs).map (r * ·) := by
  have hmono : StrictMono (r * · : K → K) := fun a b hab => mul_lt_mul_of_pos_left hab hr
  rcases eq_or_ne xs [] with rfl | hne
  · simp
  obtain ⟨a, b, ha, hb⟩ := exists_middle hne
  have hra := congrArg (Option.map (r * ·)) ha
  have hrb := congrArg (Option.map (r * ·)) hb
  rw [← List.getElem?_map, ← ranked_map hmono] at hra hrb
  have hlen : (xs.map (r * ·)).length = xs.length := List.length_map _
  rcases Nat.mod_two_eq_zero_or_one xs.length with h | h
  · rw [median_even h ha hb, median_even (by rwa [hlen]) (by rw [hlen]; exact hra)
      (by rw [hlen]; exact hrb), Option.map_some, mul_div_assoc', mul_add]
  · rw [median_odd h, median_odd (by rwa [hlen]), hlen, hrb, hb]

end Rank
