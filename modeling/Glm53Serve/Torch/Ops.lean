import Glm53Serve.Lib.Segments
import Glm53Serve.Py.Int

/-!
# Tensor operators

The operators of the tensor library that move rows about: gathering and adding rows by
index, counting, running sums, searching them and sorting by a key. Arithmetic is exact,
so the order in which rows are added does not matter.

## What is proved

* `indexAdd_append`, `indexAdd_perm` — adding rows in two calls, or in another order.
* `scatterAddOnes_getD` — the counts.
* `map_searchsorted` — searching the running sums of counts enumerates the segments.
* `Argsort.perm_indexSelect` — a sorted buffer is a permutation.
-/

namespace Torch

open Segments

variable {α β ι V : Type*}

/-! ### Gathering -/

/-- `index_select(0, idx)` and `l[idx]`. -/
def indexSelect (l : List α) (idx : List ℕ) : List α := idx.filterMap (l[·]?)

@[simp] theorem indexSelect_append (l : List α) (a b : List ℕ) :
    indexSelect l (a ++ b) = indexSelect l a ++ indexSelect l b := List.filterMap_append

theorem indexSelect_map (l : List α) (f : α → β) (idx : List ℕ) :
    indexSelect (l.map f) idx = (indexSelect l idx).map f := by
  rw [indexSelect, indexSelect, List.map_filterMap]
  simp only [List.getElem?_map]

/-- Consecutive indices select a slice. -/
theorem indexSelect_range (l : List α) (s n : ℕ) :
    indexSelect l ((List.range n).map (s + ·)) = (l.drop s).take n := by
  induction n with
  | zero => simp [indexSelect]
  | succ n ih =>
    rw [List.range_succ, List.map_append, indexSelect_append, ih, List.take_add_one,
      List.getElem?_drop]
    cases h : l[s + n]? <;> simp [indexSelect, h]

theorem perm_indexSelect (l : List α) {idx : List ℕ} (h : idx.Perm (List.range l.length)) :
    (indexSelect l idx).Perm l := by
  have hall : indexSelect l (List.range l.length) = l := by
    have := indexSelect_range l 0 l.length
    simpa using this
  conv_rhs => rw [← hall]
  exact h.filterMap _

/-! ### Adding rows by index -/

section IndexAdd

variable [DecidableEq ι]

/-- `out.index_add_(0, idx, rows)`. -/
def indexAdd [Add V] (out : ι → V) (rows : List (ι × V)) : ι → V :=
  rows.foldl (fun o r => Function.update o r.1 (o r.1 + r.2)) out

@[simp] theorem indexAdd_nil [Add V] (out : ι → V) : indexAdd out [] = out := rfl

theorem indexAdd_append [Add V] (out : ι → V) (a b : List (ι × V)) :
    indexAdd out (a ++ b) = indexAdd (indexAdd out a) b := List.foldl_append

/-- One call a block is one call with all blocks. -/
theorem foldl_indexAdd [Add V] (out : ι → V) (l : List α) (rows : α → List (ι × V)) :
    l.foldl (fun o a => indexAdd o (rows a)) out = indexAdd out (l.flatMap rows) := by
  induction l generalizing out with
  | nil => rfl
  | cons a l ih => rw [List.foldl_cons, ih, List.flatMap_cons, indexAdd_append]

variable [AddCommMonoid V]

theorem indexAdd_apply (out : ι → V) (rows : List (ι × V)) (i : ι) :
    indexAdd out rows i = out i + ((rows.filter (·.1 = i)).map Prod.snd).sum := by
  induction rows generalizing out with
  | nil => simp
  | cons r rows ih =>
    have hstep : indexAdd out (r :: rows)
        = indexAdd (Function.update out r.1 (out r.1 + r.2)) rows := rfl
    rw [hstep, ih]
    by_cases h : r.1 = i
    · subst h
      simp [add_assoc]
    · simp [h, Function.update_of_ne (Ne.symm h)]

theorem indexAdd_perm (out : ι → V) {a b : List (ι × V)} (h : a.Perm b) :
    indexAdd out a = indexAdd out b := by
  funext i
  rw [indexAdd_apply, indexAdd_apply, ((h.filter _).map _).sum_eq]

end IndexAdd

/-! ### Counting -/

/-- `zeros(n).scatter_add_(0, idx, ones)`. -/
def scatterAddOnes (n : ℕ) (idx : List ℕ) : List ℕ :=
  idx.foldl (fun counts i => counts.modify i (· + 1)) (List.replicate n 0)

theorem length_foldl_modify (counts idx : List ℕ) :
    (idx.foldl (fun counts i => counts.modify i (· + 1)) counts).length = counts.length := by
  induction idx generalizing counts with
  | nil => rfl
  | cons i idx ih => rw [List.foldl_cons, ih, List.length_modify]

@[simp] theorem length_scatterAddOnes (n : ℕ) (idx : List ℕ) :
    (scatterAddOnes n idx).length = n := by
  rw [scatterAddOnes, length_foldl_modify, List.length_replicate]

theorem getD_foldl_modify (counts idx : List ℕ) {e : ℕ} (he : e < counts.length) :
    (idx.foldl (fun counts i => counts.modify i (· + 1)) counts).getD e 0
      = counts.getD e 0 + idx.count e := by
  induction idx generalizing counts with
  | nil => rfl
  | cons i idx ih =>
    rw [List.foldl_cons, ih _ (by rwa [List.length_modify]), List.count_cons]
    have hi : (counts.modify i (· + 1)).getD e 0 = counts.getD e 0 + if i = e then 1 else 0 := by
      rw [List.getD_eq_getElem?_getD, List.getD_eq_getElem?_getD, List.getElem?_modify,
        List.getElem?_eq_getElem he]
      split_ifs <;> simp
    rw [hi]
    by_cases h : i = e <;> simp [h]
    omega

/-- Each slot holds the number of indices that name it. -/
theorem getD_scatterAddOnes {n e : ℕ} (he : e < n) (idx : List ℕ) :
    (scatterAddOnes n idx).getD e 0 = idx.count e := by
  rw [scatterAddOnes, getD_foldl_modify _ _ (by rwa [List.length_replicate])]
  simp [List.getD_eq_getElem?_getD, he]

theorem sum_modify {counts : List ℕ} {i : ℕ} (hi : i < counts.length) :
    (counts.modify i (· + 1)).sum = counts.sum + 1 := by
  induction counts generalizing i with
  | nil => simp at hi
  | cons c counts ih =>
    cases i with
    | zero => simp [Nat.add_right_comm]
    | succ i =>
      rw [List.modify_succ_cons, List.sum_cons, List.sum_cons, ih (by simpa using hi),
        Nat.add_assoc]

theorem sum_foldl_modify (counts : List ℕ) {idx : List ℕ} (h : ∀ i ∈ idx, i < counts.length) :
    (idx.foldl (fun counts i => counts.modify i (· + 1)) counts).sum
      = counts.sum + idx.length := by
  induction idx generalizing counts with
  | nil => rfl
  | cons i idx ih =>
    obtain ⟨hi, h⟩ := List.forall_mem_cons.mp h
    rw [List.foldl_cons, ih _ (by simpa using h), sum_modify hi, List.length_cons]
    omega

/-- Every index is counted. -/
theorem sum_scatterAddOnes {n : ℕ} {idx : List ℕ} (h : ∀ i ∈ idx, i < n) :
    (scatterAddOnes n idx).sum = idx.length := by
  rw [scatterAddOnes, sum_foldl_modify _ (by simpa using h)]
  simp

/-! ### Running sums -/

/-- `cumsum(0)` on top of what comes before. -/
def cumsumFrom (acc : ℕ) : List ℕ → List ℕ
  | [] => []
  | c :: cs => (acc + c) :: cumsumFrom (acc + c) cs

/-- `cumsum(0)`. -/
def cumsum (l : List ℕ) : List ℕ := cumsumFrom 0 l

theorem length_cumsumFrom (acc : ℕ) (l : List ℕ) : (cumsumFrom acc l).length = l.length := by
  induction l generalizing acc with
  | nil => rfl
  | cons c cs ih => rw [cumsumFrom, List.length_cons, List.length_cons, ih]

@[simp] theorem length_cumsum (l : List ℕ) : (cumsum l).length = l.length := length_cumsumFrom 0 l

theorem getElem?_cumsumFrom (acc : ℕ) (l : List ℕ) {e : ℕ} (he : e < l.length) :
    (cumsumFrom acc l)[e]? = some (acc + start l (e + 1)) := by
  induction l generalizing acc e with
  | nil => simp at he
  | cons c cs ih =>
    cases e with
    | zero => simp [cumsumFrom, start]
    | succ e =>
      rw [cumsumFrom, List.getElem?_cons_succ, ih _ (by simpa using he)]
      simp [start, Nat.add_assoc]

/-- The running sum at `e` is where the segment after it starts. -/
theorem getElem?_cumsum {l : List ℕ} {e : ℕ} (he : e < l.length) :
    (cumsum l)[e]? = some (start l (e + 1)) := by
  rw [cumsum, getElem?_cumsumFrom 0 l he, Nat.zero_add]

theorem getD_cumsum {l : List ℕ} {e : ℕ} (he : e < l.length) :
    (cumsum l).getD e 0 = start l (e + 1) := by
  rw [List.getD_eq_getElem?_getD, getElem?_cumsum he, Option.getD_some]

/-- `searchsorted(cum, i, right=True)`: how many running sums come before the first one
above `i`. -/
def searchsorted (cum : List ℕ) (i : ℕ) : ℕ := cum.findIdx (i < ·)

/-- A position of the segment of `e` is found at `e`. -/
theorem searchsorted_cumsum {counts : List ℕ} {e j : ℕ} (he : e < counts.length)
    (hj : j < counts.getD e 0) : searchsorted (cumsum counts) (start counts e + j) = e := by
  have he' : e < (cumsum counts).length := by rwa [length_cumsum]
  rw [searchsorted, List.findIdx_eq he']
  constructor
  · have h := getElem?_cumsum he
    rw [List.getElem?_eq_getElem he', Option.some.injEq] at h
    rw [h, start_succ]
    simpa using hj
  · intro i hi
    have h := getElem?_cumsum (hi.trans he)
    rw [List.getElem?_eq_getElem (hi.trans he'), Option.some.injEq] at h
    have hle : start counts (i + 1) ≤ start counts e := start_mono counts hi
    simp only [h, decide_eq_false_iff_not, not_lt]
    omega

/-- Searching the running sums for every position enumerates the segments in order: what
is computed from the segment found and the position inside it. -/
theorem map_searchsorted (counts : List ℕ) (g : ℕ → ℕ → β) :
    ((List.range counts.sum).map fun i =>
      g (searchsorted (cumsum counts) i)
        (i - ((cumsum counts).getD (searchsorted (cumsum counts) i) 0
          - counts.getD (searchsorted (cumsum counts) i) 0)))
      = (List.range counts.length).flatMap fun e => (List.range (counts.getD e 0)).map (g e) := by
  rw [range_sum, List.map_flatMap]
  refine List.flatMap_congr fun e he => ?_
  rw [List.map_map]
  refine List.map_congr_left fun j hj => ?_
  have he : e < counts.length := List.mem_range.mp he
  simp only [Function.comp_apply]
  rw [searchsorted_cumsum he (List.mem_range.mp hj), getD_cumsum he, start_succ]
  congr 1
  omega

/-! ### Sorting -/

/-- `argsort()`: some permutation of the positions that sorts the values; equal values may
come in any order. -/
structure Argsort where
  /-- The positions in sorted order. -/
  order : List ℤ → List ℕ
  /-- Every position occurs once. -/
  perm : ∀ l, (order l).Perm (List.range l.length)
  /-- The values are sorted. -/
  sorted : ∀ l, (indexSelect l (order l)).Pairwise (· ≤ ·)

/-- `argsort(stable=True)`. -/
def Argsort.stable : Argsort where
  order l := (List.range l.length).mergeSort fun i j => l.getD i 0 ≤ l.getD j 0
  perm l := List.mergeSort_perm _ _
  sorted l := by
    have h : ((List.range l.length).mergeSort fun i j => l.getD i 0 ≤ l.getD j 0).Pairwise
        fun i j => decide (l.getD i 0 ≤ l.getD j 0) := by
      refine List.pairwise_mergeSort (fun a b c hab hbc => ?_) (fun a b => ?_) _
      · simp only [decide_eq_true_eq] at hab hbc ⊢
        exact hab.trans hbc
      · simpa using le_total _ _
    rw [indexSelect, List.pairwise_filterMap]
    refine h.imp fun {i j} hij a ha b hb => ?_
    simpa [List.getD_eq_getElem?_getD, ha, hb] using hij

/-- `torch.unique(l)`. -/
def unique (l : List ℤ) : List ℤ := Py.sortedSet l

theorem nodup_unique (l : List ℤ) : (unique l).Nodup :=
  (List.perm_insertionSort _ _).nodup_iff.mpr (List.nodup_dedup l)

@[simp] theorem mem_unique {l : List ℤ} {k : ℤ} : k ∈ unique l ↔ k ∈ l := Py.mem_sortedSet

end Torch
