import Mathlib

/-!
# Segments of a sorted list

A list sorted by a key, together with the number of its elements of each key, is the
concatenation of one segment a key, and the segment of a key starts at the sum of the
counts before it.

## What is proved

* `seg_of_sorted` — a segment holds the elements of its key, in order.
* `seg_flatMap` — the segments of a concatenation of blocks are the blocks.
* `range_sum` — the positions of all segments, in order.
* `flatMap_filter_perm`, `flatMap_comm_perm` — grouping by key, and exchanging two loops,
  permute the elements.
* `flatMap_window` — the windows of one length cover a list.
-/

namespace Segments

variable {α β κ : Type*}

/-- Where the segment of `e` starts. -/
def start (counts : List ℕ) (e : ℕ) : ℕ := (counts.take e).sum

/-- The segment of `e`. -/
def seg (counts : List ℕ) (e : ℕ) (l : List α) : List α :=
  (l.drop (start counts e)).take (counts.getD e 0)

@[simp] theorem start_zero (counts : List ℕ) : start counts 0 = 0 := rfl

theorem start_succ (counts : List ℕ) (e : ℕ) :
    start counts (e + 1) = start counts e + counts.getD e 0 := by
  induction counts generalizing e with
  | nil => simp [start]
  | cons c cs ih =>
    cases e with
    | zero => simp [start]
    | succ e =>
      simp only [start, List.take_succ_cons, List.sum_cons, List.getD_cons_succ] at ih ⊢
      rw [ih, Nat.add_assoc]

theorem start_mono (counts : List ℕ) : Monotone (start counts) :=
  monotone_nat_of_le_succ fun e => by rw [start_succ]; exact Nat.le_add_right _ _

theorem start_length (counts : List ℕ) : start counts counts.length = counts.sum := by
  rw [start, List.take_length]

theorem start_le_sum (counts : List ℕ) (e : ℕ) : start counts e ≤ counts.sum := by
  rw [← start_length counts]
  rcases le_total e counts.length with h | h
  · exact start_mono counts h
  · rw [start, start, List.take_length, List.take_of_length_le h]

theorem seg_le_sum (counts : List ℕ) (e : ℕ) :
    start counts e + counts.getD e 0 ≤ counts.sum := by
  rw [← start_succ]
  exact start_le_sum counts (e + 1)

theorem seg_map (counts : List ℕ) (e : ℕ) (f : α → β) (l : List α) :
    seg counts e (l.map f) = (seg counts e l).map f := by
  rw [seg, seg, ← List.map_drop, ← List.map_take]

theorem length_seg {counts : List ℕ} {l : List α} (h : counts.sum ≤ l.length) (e : ℕ) :
    (seg counts e l).length = counts.getD e 0 := by
  have hle := seg_le_sum counts e
  rw [seg, List.length_take, List.length_drop]
  omega

/-! ### The counts of the first keys -/

theorem getD_take {counts : List ℕ} {n e : ℕ} (he : e < n) :
    (counts.take n).getD e 0 = counts.getD e 0 := by
  rw [List.getD_eq_getElem?_getD, List.getD_eq_getElem?_getD, List.getElem?_take_of_lt he]

theorem start_take {counts : List ℕ} {n e : ℕ} (he : e ≤ n) :
    start (counts.take n) e = start counts e := by
  rw [start, start, List.take_take, min_eq_left he]

theorem seg_take {counts : List ℕ} {n e : ℕ} (he : e < n) (l : List α) :
    seg (counts.take n) e l = seg counts e l := by
  rw [seg, seg, start_take he.le, getD_take he]

/-! ### Sorted lists -/

section Sorted

variable {l : List α} {key : α → ℕ}

/-- The elements of a key below `e` come first. -/
theorem take_countP_lt (hs : l.Pairwise fun a b => key a ≤ key b) (e : ℕ) :
    l.take (l.countP (key · < e)) = l.filter (key · < e) := by
  induction l with
  | nil => rfl
  | cons a l ih =>
    obtain ⟨ha, hs⟩ := List.pairwise_cons.mp hs
    by_cases h : key a < e
    · simp [h, ih hs]
    · have hnone : ∀ b ∈ l, ¬ key b < e := fun b hb hlt => h (lt_of_le_of_lt (ha b hb) hlt)
      have hcount : l.countP (key · < e) = 0 := by simpa [List.countP_eq_zero] using hnone
      have hfilter : l.filter (key · < e) = [] := by simpa [List.filter_eq_nil_iff] using hnone
      simp [h, hcount, hfilter]

/-- The elements of a key from `e` on come last. -/
theorem drop_countP_lt (hs : l.Pairwise fun a b => key a ≤ key b) (e : ℕ) :
    l.drop (l.countP (key · < e)) = l.filter (e ≤ key ·) := by
  induction l with
  | nil => rfl
  | cons a l ih =>
    obtain ⟨ha, hs⟩ := List.pairwise_cons.mp hs
    by_cases h : key a < e
    · simp [h, ih hs]
    · have hall : ∀ b ∈ l, e ≤ key b := fun b hb => (not_lt.mp h).trans (ha b hb)
      have hcount : l.countP (key · < e) = 0 := by
        simpa [List.countP_eq_zero] using hall
      have hfilter : l.filter (e ≤ key ·) = l := by simpa [List.filter_eq_self] using hall
      simp [h, hcount, hfilter, not_lt.mp h]

theorem countP_lt_succ (l : List α) (key : α → ℕ) (e : ℕ) :
    l.countP (key · < e + 1) = l.countP (key · < e) + l.countP (key · = e) := by
  induction l with
  | nil => rfl
  | cons a l ih =>
    simp only [List.countP_cons, decide_eq_true_eq, ih]
    split_ifs <;> omega

/-- The counts of the keys give the starts of the segments. -/
theorem start_eq_countP {counts : List ℕ} {e : ℕ}
    (hc : ∀ i < e, counts.getD i 0 = l.countP (key · = i)) :
    start counts e = l.countP (key · < e) := by
  induction e with
  | zero => simp
  | succ e ih =>
    rw [start_succ, countP_lt_succ, hc e e.lt_succ_self, ih fun i hi => hc i (by omega)]

/-- In a list sorted by a key, the segment of a key holds the elements of that key. -/
theorem seg_of_sorted {counts : List ℕ} {e : ℕ} (hs : l.Pairwise fun a b => key a ≤ key b)
    (hc : ∀ i ≤ e, counts.getD i 0 = l.countP (key · = i)) :
    seg counts e l = l.filter (key · = e) := by
  have hfrom : (l.filter (e ≤ key ·)).Pairwise fun a b => key a ≤ key b := hs.filter _
  have hcount : l.countP (key · = e) = (l.filter (e ≤ key ·)).countP (key · < e + 1) := by
    rw [List.countP_filter]
    refine List.countP_congr fun a _ => ?_
    simp only [decide_eq_true_eq, Bool.and_eq_true]
    omega
  rw [seg, start_eq_countP fun i hi => hc i hi.le, hc e le_rfl, drop_countP_lt hs, hcount,
    take_countP_lt hfrom, List.filter_filter]
  refine List.filter_congr fun a _ => ?_
  rw [Bool.eq_iff_iff]
  simp only [decide_eq_true_eq, Bool.and_eq_true]
  omega

end Sorted

/-! ### Concatenations -/

/-- Blocks of the counted lengths, one after the other, are the segments. -/
theorem seg_flatMap {counts : List ℕ} {n : ℕ} (blocks : ℕ → List α)
    (hb : ∀ e < n, (blocks e).length = counts.getD e 0) {e : ℕ} (he : e < n) :
    seg counts e ((List.range n).flatMap blocks) = blocks e := by
  have hlen : ∀ i ≤ n, ((List.range i).flatMap blocks).length = start counts i := by
    intro i hi
    induction i with
    | zero => rfl
    | succ i ih =>
      rw [List.range_succ, List.flatMap_append, List.length_append, ih (by omega), start_succ]
      simp [hb i hi]
  have hsplit : List.range n = List.range e ++ e :: (List.range (n - e - 1)).map (e + 1 + ·) := by
    rw [show n = e + (1 + (n - e - 1)) by omega, List.range_add, List.range_add]
    simp [Function.comp_def, Nat.add_assoc]
  rw [hsplit, seg, List.flatMap_append, List.flatMap_cons, ← hlen e he.le, List.drop_left,
    ← hb e he, List.take_left]

/-- The positions of all segments are the positions up to the sum of the counts. -/
theorem range_sum (counts : List ℕ) :
    List.range counts.sum = (List.range counts.length).flatMap fun e =>
      (List.range (counts.getD e 0)).map (start counts e + ·) := by
  have h : ∀ i ≤ counts.length, List.range (start counts i) = (List.range i).flatMap fun e =>
      (List.range (counts.getD e 0)).map (start counts e + ·) := by
    intro i hi
    induction i with
    | zero => rfl
    | succ i ih =>
      rw [start_succ, List.range_add, ih (by omega), List.range_succ, List.flatMap_append]
      simp
  rw [← start_length, h _ le_rfl]

/-- A position lies in some segment. -/
theorem exists_seg_of_lt_sum {counts : List ℕ} {i : ℕ} (h : i < counts.sum) :
    ∃ e < counts.length, ∃ j < counts.getD e 0, i = start counts e + j := by
  have hi := List.mem_range.mpr h
  rw [range_sum, List.mem_flatMap] at hi
  obtain ⟨e, he, hi⟩ := hi
  obtain ⟨j, hj, rfl⟩ := List.mem_map.mp hi
  exact ⟨e, List.mem_range.mp he, j, List.mem_range.mp hj, rfl⟩

/-- Counts that come later do not move a segment. -/
theorem start_append_of_le {counts : List ℕ} {e : ℕ} (he : e ≤ counts.length) (cs : List ℕ) :
    start (counts ++ cs) e = start counts e := by
  rw [start, start, List.take_append_of_le_length he]

/-- Windows of one length cover a list that is not longer than all of them. -/
theorem flatMap_window (l : List α) {w m : ℕ} (h : l.length ≤ m * w) :
    ((List.range m).flatMap fun t => (l.drop (t * w)).take w) = l := by
  have htake : ∀ i, ((List.range i).flatMap fun t => (l.drop (t * w)).take w) = l.take (i * w) := by
    intro i
    induction i with
    | zero => simp
    | succ i ih =>
      rw [List.range_succ, List.flatMap_append, ih, Nat.succ_mul, List.take_add]
      simp
  rw [htake, List.take_of_length_le h]

/-! ### Permutations -/

section Perm

/-- A loop over a list inside a loop over another one, exchanged. -/
theorem flatMap_comm_perm {γ : Type*} (l₁ : List α) (l₂ : List β) (f : α → β → List γ) :
    (l₁.flatMap fun a => l₂.flatMap fun b => f a b).Perm
      (l₂.flatMap fun b => l₁.flatMap fun a => f a b) := by
  rw [← Multiset.coe_eq_coe, ← Multiset.coe_bind, ← Multiset.coe_bind]
  simp only [← Multiset.coe_bind]
  exact Multiset.bind_bind _ _

variable [DecidableEq κ]

theorem flatMap_ite_nodup {keys : List κ} (hk : keys.Nodup) (k : κ) (g : κ → List β) :
    (keys.flatMap fun j => if k = j then g j else []) = if k ∈ keys then g k else [] := by
  induction keys with
  | nil => rfl
  | cons j keys ih =>
    obtain ⟨hj, hk⟩ := List.nodup_cons.mp hk
    rw [List.flatMap_cons, ih hk]
    by_cases h : k = j
    · subst h
      simp [hj]
    · simp [h]

/-- Grouping the elements by key permutes them; elements of a key that is not listed are
left out. -/
theorem flatMap_filter_perm {keys : List κ} (hk : keys.Nodup) (l : List α) (key : α → κ)
    (g : κ → α → List β) :
    (keys.flatMap fun k => (l.filter (key · = k)).flatMap (g k)).Perm
      (l.flatMap fun a => if key a ∈ keys then g (key a) a else []) := by
  induction l with
  | nil => simp
  | cons a l ih =>
    have hstep : ∀ k, ((a :: l).filter (key · = k)).flatMap (g k)
        = (if key a = k then g k a else []) ++ (l.filter (key · = k)).flatMap (g k) := by
      intro k
      by_cases h : key a = k <;> simp [h]
    simp only [hstep, List.flatMap_cons]
    refine (List.flatMap_append_perm keys _ _).symm.trans ?_
    rw [flatMap_ite_nodup hk (key a) fun k => g k a]
    exact ih.append_left _

end Perm

end Segments
