import Glm53Serve.Torch.Columns
import Mathlib.Algebra.BigOperators.Group.List.Basic
import Mathlib.Algebra.Order.BigOperators.Group.List
import Mathlib.Tactic.Ring

/-!
# Tensors row by row

A contiguous tensor is its shape and its elements in row-major order. A slice along a dimension
takes a chunk of every block of rows; tensors are joined along a dimension by their chunks; and an
index selects a chunk of the elements, which a copy replaces.

## What is proved

* `cat_narrow` — the slices of all ranks, joined, are the tensor.
* `chunk_setChunk`, `setChunk_comm` — chunks that are replaced.
-/

namespace Torch

universe u

variable {α : Type u}

/-! ### Chunks -/

/-- The `i`-th chunk of a width. -/
def chunk (width i : ℕ) (l : List α) : List α := (l.drop (i * width)).take width

/-- The list with the `i`-th chunk replaced. -/
def setChunk (width i : ℕ) (v l : List α) : List α :=
  l.take (i * width) ++ v ++ l.drop ((i + 1) * width)

theorem length_chunk {width i : ℕ} {l : List α} (h : (i + 1) * width ≤ l.length) :
    (chunk width i l).length = width := by
  rw [Nat.succ_mul] at h
  rw [chunk, List.length_take, List.length_drop]
  omega

theorem length_setChunk {width i : ℕ} {v l : List α} (hv : v.length = width)
    (h : (i + 1) * width ≤ l.length) :
    (setChunk width i v l).length = l.length := by
  rw [Nat.succ_mul] at h
  simp only [setChunk, List.length_append, List.length_take, List.length_drop, Nat.succ_mul]
  omega

/-- An element of a list with a chunk replaced. -/
theorem getElem?_setChunk {width i : ℕ} {v l : List α} (hv : v.length = width)
    (h : (i + 1) * width ≤ l.length) (j : ℕ) : (setChunk width i v l)[j]? =
      if i * width ≤ j ∧ j < (i + 1) * width then v[j - i * width]? else l[j]? := by
  rw [Nat.succ_mul] at h ⊢
  rw [setChunk, Nat.succ_mul, List.append_assoc]
  by_cases hlow : j < i * width
  · rw [List.getElem?_append_left (by rw [List.length_take]; omega), List.getElem?_take_of_lt hlow,
      if_neg (by omega)]
  · rw [List.getElem?_append_right (by rw [List.length_take]; omega), List.length_take,
      Nat.min_eq_left (by omega)]
    by_cases hhigh : j < i * width + width
    · rw [List.getElem?_append_left (by omega), if_pos ⟨by omega, hhigh⟩]
    · rw [List.getElem?_append_right (by omega), List.getElem?_drop, if_neg (by omega), hv]
      congr 1
      omega

theorem chunk_setChunk {width i : ℕ} {v l : List α} (hv : v.length = width)
    (h : (i + 1) * width ≤ l.length) :
    chunk width i (setChunk width i v l) = v := by
  refine List.ext_getElem? fun j => ?_
  rw [chunk, List.getElem?_take, List.getElem?_drop, getElem?_setChunk hv h, Nat.succ_mul]
  by_cases hj : j < width
  · rw [if_pos hj, if_pos ⟨by omega, by omega⟩, Nat.add_sub_cancel_left]
  · rw [if_neg hj, List.getElem?_eq_none (by omega)]

/-- Chunks at different places do not meet. -/
theorem chunks_apart {width i k j : ℕ} (hik : i ≠ k) (hi : i * width ≤ j ∧ j < (i + 1) * width) :
    ¬(k * width ≤ j ∧ j < (k + 1) * width) := by
  rintro ⟨hlow, hhigh⟩
  rcases Nat.lt_or_gt_of_ne hik with hlt | hlt
  · have := Nat.mul_le_mul_right width (Nat.succ_le_of_lt hlt)
    simp only [Nat.succ_eq_add_one] at this
    omega
  · have := Nat.mul_le_mul_right width (Nat.succ_le_of_lt hlt)
    simp only [Nat.succ_eq_add_one] at this
    omega

theorem setChunk_comm {width i k : ℕ} {v w l : List α} (hv : v.length = width)
    (hw : w.length = width)
    (hi : (i + 1) * width ≤ l.length) (hk : (k + 1) * width ≤ l.length) (hik : i ≠ k) :
    setChunk width i v (setChunk width k w l) = setChunk width k w (setChunk width i v l) := by
  refine List.ext_getElem? fun j => ?_
  rw [getElem?_setChunk hv (by rwa [length_setChunk hw hk]), getElem?_setChunk hw hk,
    getElem?_setChunk hw (by rwa [length_setChunk hv hi]), getElem?_setChunk hv hi]
  by_cases hji : i * width ≤ j ∧ j < (i + 1) * width
  · rw [if_pos hji, if_neg (chunks_apart hik hji), if_pos hji]
  · rw [if_neg hji, if_neg hji]

/-- A chunk of chunks of one width, one after the other. -/
theorem chunk_flatMap {β : Type*} {width n i : ℕ} {f : ℕ → List β}
    (hf : ∀ i < n, (f i).length = width)
    (hi : i < n) : chunk width i ((List.range n).flatMap f) = f i := by
  induction n with
  | zero => omega
  | succ n ih =>
    have hlen : ((List.range n).flatMap f).length = n * width := by
      rw [List.length_flatMap, List.map_congr_left fun k hk =>
        hf k (by have := List.mem_range.mp hk; omega)]
      simp
    rw [List.range_succ, List.flatMap_append, List.flatMap_singleton, chunk]
    rcases Nat.lt_or_eq_of_le (Nat.le_of_lt_succ hi) with hlt | rfl
    · have hle : (i + 1) * width ≤ n * width := Nat.mul_le_mul_right width hlt
      rw [Nat.succ_mul] at hle
      rw [List.drop_append_of_le_length (by omega), List.take_append_of_le_length
        (by rw [List.length_drop]; omega), ← chunk, ih (fun k hk => hf k (by omega)) hlt]
    · rw [← hlen, List.drop_left, ← hf i hi, List.take_length]

/-! ### Slices along a dimension -/

/-- A contiguous tensor: its elements in row-major order. -/
@[ext]
structure Tensor (α : Type u) where
  shape : List ℕ
  data : List α
  /-- It has an element for every index. -/
  len : data.length = shape.prod

namespace Tensor

/-- The number of blocks along a dimension. -/
def outer (shape : List ℕ) (dim : ℕ) : ℕ := (shape.take dim).prod

/-- The elements of one row of a block. -/
def inner (shape : List ℕ) (dim : ℕ) : ℕ := (shape.drop (dim + 1)).prod

theorem prod_set {shape : List ℕ} {dim n : ℕ} (h : dim < shape.length) :
    (shape.set dim n).prod = outer shape dim * (n * inner shape dim) := by
  rw [List.prod_set, if_pos h, outer, inner, Nat.mul_assoc]

theorem prod_shape {shape : List ℕ} {dim n : ℕ} (h : shape[dim]? = some n) :
    shape.prod = outer shape dim * (n * inner shape dim) := by
  obtain ⟨hdim, rfl⟩ := List.getElem?_eq_some_iff.mp h
  rw [← prod_set hdim, List.set_getElem_self]

/-- The rows `start .. start + len` of the `i`-th block of `n` rows. -/
def rowsOf (data : List α) (n width start len i : ℕ) : List α :=
  (data.drop ((i * n + start) * width)).take (len * width)

theorem length_rowsOf {data : List α} {n width start len i count : ℕ}
    (hlen : data.length = count * (n * width))
    (hi : i < count) (h : start + len ≤ n) :
    (rowsOf data n width start len i).length = len * width := by
  have hrows : i * n + start + len ≤ count * n := by
    have := Nat.mul_le_mul_right n (Nat.succ_le_of_lt hi)
    rw [Nat.succ_mul] at this
    omega
  have hle := Nat.mul_le_mul_right width hrows
  rw [Nat.add_mul, Nat.mul_assoc count, ← hlen] at hle
  rw [rowsOf, List.length_take, List.length_drop]
  omega

/-- `t.narrow(dim, start, len)`; `none` where it raises. -/
def narrow (t : Tensor α) (dim start len : ℕ) : Option (Tensor α) :=
  match hn : t.shape[dim]? with
  | none => none
  | some n =>
    if h : start + len ≤ n then
      some {
        shape := t.shape.set dim len
        data := (List.range (outer t.shape dim)).flatMap
          (rowsOf t.data n (inner t.shape dim) start len)
        len := by
          rw [List.length_flatMap, List.map_congr_left fun i hi =>
            length_rowsOf (t.len.trans (prod_shape hn)) (List.mem_range.mp hi) h]
          rw [prod_set (List.getElem?_eq_some_iff.mp hn).1]
          simp }
    else none

/-- The shape and the elements of `torch.cat(ts, dim)` of tensors that differ in this dimension
alone. -/
def cat (dim : ℕ) (ts : List (Tensor α)) : List ℕ × List α :=
  match ts with
  | [] => ([], [])
  | t :: _ =>
    (t.shape.set dim (ts.map fun t => t.shape.getD dim 0).sum,
      (List.range (outer t.shape dim)).flatMap fun i =>
        ts.flatMap fun t => chunk (t.shape.getD dim 0 * inner t.shape dim) i t.data)

theorem narrow_eq {t s : Tensor α} {dim start len n : ℕ} (hn : t.shape[dim]? = some n)
    (h : t.narrow dim start len = some s) : s.shape = t.shape.set dim len ∧
      s.data = (List.range (outer t.shape dim)).flatMap
        (rowsOf t.data n (inner t.shape dim) start len) ∧
      start + len ≤ n := by
  unfold narrow at h
  split at h
  · exact absurd h nofun
  · rename_i m hm
    obtain rfl := Option.some.inj (hm.symm.trans hn)
    split at h
    · cases h
      exact ⟨rfl, rfl, ‹_›⟩
    · exact absurd h nofun

theorem narrow_isSome {t : Tensor α} {dim start len n : ℕ} (hn : t.shape[dim]? = some n)
    (h : start + len ≤ n) : (t.narrow dim start len).isSome := by
  unfold narrow
  split
  · rename_i hm
    exact absurd (hm.symm.trans hn) nofun
  · rename_i m hm
    obtain rfl := Option.some.inj (hm.symm.trans hn)
    rw [dif_pos h, Option.isSome_some]

/-- A block is its slices, one after the other. -/
theorem flatMap_rowsOf {data : List α} {len count width i : ℕ} :
    (List.range count).flatMap (fun r => rowsOf data (len * count) width (len * r) len i) =
      chunk (len * count * width) i data := by
  rw [chunk, show len * count * width = count * (len * width) by ring, ← take_chunks]
  refine List.flatMap_congr fun r hr => ?_
  rw [rowsOf, List.drop_drop]
  ring_nf

/-- The slice of all rows. -/
theorem narrow_all {t : Tensor α} {dim n : ℕ} (hn : t.shape[dim]? = some n) :
    t.narrow dim 0 n = some t := by
  obtain ⟨s, hs⟩ := Option.isSome_iff_exists.mp (narrow_isSome hn (Nat.le_of_eq (Nat.zero_add n)))
  obtain ⟨hshape, hdata, -⟩ := narrow_eq hn hs
  obtain ⟨hdim, hsize⟩ := List.getElem?_eq_some_iff.mp hn
  have hrows : ∀ i, rowsOf t.data n (inner t.shape dim) 0 n i =
      chunk (n * inner t.shape dim) i t.data := fun i => by
    rw [chunk, rowsOf, Nat.add_zero, Nat.mul_assoc]
  rw [hs, Option.some.injEq]
  refine Tensor.ext ?_ ?_
  · rw [hshape, ← hsize, List.set_getElem_self]
  · rw [hdata, funext hrows]
    simp only [chunk]
    rw [take_chunks, ← prod_shape hn, ← t.len, List.take_length]

/-- The slices of all ranks, joined, are the tensor. -/
theorem cat_narrow {t : Tensor α} {dim len count : ℕ} {slice : ℕ → Tensor α}
    (hn : t.shape[dim]? = some (len * count)) (hcount : 0 < count)
    (h : ∀ r < count, t.narrow dim (len * r) len = some (slice r)) :
    cat dim ((List.range count).map slice) = (t.shape, t.data) := by
  have hdim := (List.getElem?_eq_some_iff.mp hn).1
  have hslice := fun r hr => narrow_eq hn (h r hr)
  have hsize : ∀ r < count, (slice r).shape.getD dim 0 = len := fun r hr => by
    simp [(hslice r hr).1, hdim]
  have houter : outer (slice 0).shape dim = outer t.shape dim := by
    rw [outer, outer, (hslice 0 hcount).1, List.take_set_of_le le_rfl]
  have hinner : ∀ r < count, inner (slice r).shape dim = inner t.shape dim := fun r hr => by
    rw [inner, inner, (hslice r hr).1, List.drop_set_of_lt (by omega)]
  obtain ⟨count, rfl⟩ := Nat.exists_eq_succ_of_ne_zero hcount.ne'
  rw [List.range_succ_eq_map, List.map_cons, cat, ← List.map_cons, ← List.range_succ_eq_map,
    Prod.mk.injEq]
  constructor
  · have hsum : (((List.range (count + 1)).map slice).map fun t => t.shape.getD dim 0).sum =
        len * (count + 1) := by
      rw [List.map_map, List.sum_eq_card_nsmul _ len (by
        rintro _ hx
        obtain ⟨r, hr, rfl⟩ := List.mem_map.mp hx
        exact hsize r (List.mem_range.mp hr))]
      rw [List.length_map, List.length_range, nsmul_eq_mul, Nat.cast_id, Nat.mul_comm]
    rw [hsum, (hslice 0 hcount).1, List.set_set, ← (List.getElem?_eq_some_iff.mp hn).2,
      List.set_getElem_self]
  · have hdata := take_chunks t.data (len * (count + 1) * inner t.shape dim) (outer t.shape dim)
    rw [← prod_shape hn, ← t.len, List.take_length] at hdata
    rw [houter, ← hdata]
    refine List.flatMap_congr fun i hi => ?_
    rw [List.flatMap_map, ← chunk, ← flatMap_rowsOf]
    refine List.flatMap_congr fun r hr => ?_
    have hr := List.mem_range.mp hr
    rw [hsize r hr, hinner r hr, (hslice r hr).2.1]
    exact chunk_flatMap (fun k hk =>
      length_rowsOf (t.len.trans (prod_shape hn)) hk (hslice r hr).2.2)
      (List.mem_range.mp hi)

end Tensor

end Torch
