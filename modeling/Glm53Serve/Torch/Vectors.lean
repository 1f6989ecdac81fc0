import Glm53Serve.Torch.Columns
import Mathlib.Algebra.BigOperators.Group.List.Basic
import Mathlib.Algebra.Order.Ring.Basic
import Mathlib.Tactic.Ring

/-!
# Products of vectors and matrices

The operators of the tensor library on vectors and matrices, in exact arithmetic. A matrix is
given by its columns, and each operator by what it does to a column.

## What is proved

* `Mat.ext_col` — matrices of one shape with the same columns are the same.
* `vecMul_eq_of_col`, `col_slice`, `col_sub_outer` — the operators by columns.
* `dot_sub_outer` — the product with a column to which a multiple of a vector is added.
* `dot_self_pos` — the norm of a vector that is not zero.
-/

namespace Torch

universe u

variable {K : Type u}

section Ring

variable [Ring K]

/-- `v @ w`. -/
def dot (v w : List K) : K := (List.zipWith (· * ·) v w).sum

/-- `m[:, j]`. -/
def Mat.col (m : Mat K) (j : ℕ) : List K := m.rows.map (·.getD j 0)

/-- `v @ m`. -/
def vecMul (v : List K) (m : Mat K) : List K := (List.range m.cols).map fun j => dot v (m.col j)

/-- `torch.outer(v, w)`. -/
def outer (v w : List K) : Mat K where
  rows := v.map fun x => w.map (x * ·)
  cols := w.length
  len := by simp

/-- A matrix with `f` of each element, as in `alpha * m / n`. -/
def Mat.map (f : K → K) (m : Mat K) : Mat K where
  rows := m.rows.map (·.map f)
  cols := m.cols
  len := by simpa using m.len

/-- `m - d`, of one shape. -/
def Mat.sub (m d : Mat K) : Mat K where
  rows := List.zipWith (List.zipWith (· - ·)) m.rows d.rows
  cols := min m.cols d.cols
  len := by
    intro r hr
    obtain ⟨i, hi, rfl⟩ := List.getElem_of_mem hr
    rw [List.getElem_zipWith, List.length_zipWith, m.len _ (List.getElem_mem _),
      d.len _ (List.getElem_mem _)]

@[simp] theorem length_col (m : Mat K) (j : ℕ) : (m.col j).length = m.height := by
  simp [Mat.col, Mat.height]

@[simp] theorem length_vecMul (v : List K) (m : Mat K) : (vecMul v m).length = m.cols := by
  simp [vecMul]

/-- Matrices of one shape with the same columns. -/
theorem Mat.ext_col {m m' : Mat K} (hh : m.height = m'.height) (hc : m.cols = m'.cols)
    (h : ∀ j < m.cols, m.col j = m'.col j) : m = m' := by
  refine Mat.ext (List.ext_getElem hh fun i hi hi' => ?_) hc
  have hlen : m.rows[i].length = m.cols := m.len _ (List.getElem_mem hi)
  have hlen' : m'.rows[i].length = m'.cols := m'.len _ (List.getElem_mem hi')
  refine List.ext_getElem (by omega) fun j hj hj' => ?_
  have hentry : (m.col j)[i]? = (m'.col j)[i]? := by rw [h j (by omega)]
  simpa [Mat.col, List.getElem?_eq_getElem, hi, hi', hj, hj'] using hentry

/-- A product by its values on the columns. -/
theorem vecMul_eq_of_col {v w : List K} {m m' : Mat K} {f : K → K} (hc : m.cols = m'.cols)
    (h : ∀ j < m.cols, dot v (m.col j) = f (dot w (m'.col j))) :
    vecMul v m = (vecMul w m').map f := by
  rw [vecMul, vecMul, List.map_map, ← hc]
  exact List.map_congr_left fun j hj => h j (List.mem_range.mp hj)

theorem col_slice (m : Mat K) {lo hi j : ℕ} (h : j < (m.slice lo hi).cols) :
    (m.slice lo hi).col j = m.col (lo + j) := by
  have hj : j < hi - lo := by simp only [Mat.slice] at h; omega
  simp only [Mat.col, Mat.slice, List.map_map]
  refine List.map_congr_left fun r _ => ?_
  simp [List.getD_eq_getElem?_getD, hj]

/-- Taking multiples of one vector from the columns. -/
theorem col_sub_outer (m : Mat K) (v w : List K) (f : K → K) {j : ℕ} (hj : j < m.cols)
    (hw : w.length = m.cols) : (m.sub ((outer v w).map f)).col j =
      List.zipWith (fun y x => y - f (x * w.getD j 0)) (m.col j) v := by
  have hj' : j < w.length := by omega
  refine List.ext_getElem (by simp [Mat.col, Mat.sub, Mat.map, outer]) fun i hi hi' => ?_
  have him : i < m.rows.length := by
    simp only [length_col, Mat.height, Mat.sub, List.length_zipWith] at hi
    omega
  have hlen : m.rows[i].length = m.cols := m.len _ (List.getElem_mem him)
  simp [Mat.col, Mat.sub, Mat.map, outer, List.getD_eq_getElem?_getD, List.getElem?_zipWith,
    hlen, hj, hj']

end Ring

section CommRing

variable [CommRing K]

/-- The product with a column from which a multiple of `r` is taken. -/
theorem dot_sub_outer (c : K) : ∀ {v y r : List K}, y.length = r.length →
    dot v (List.zipWith (fun w x => w - x * c) y r) = dot v y - dot v r * c := by
  intro v
  induction v with
  | nil => simp [dot]
  | cons a v ih =>
    intro y r h
    cases y with
    | nil =>
      obtain rfl : r = [] := List.length_eq_zero_iff.mp h.symm
      simp [dot]
    | cons w y =>
      cases r with
      | nil => cases h
      | cons x r =>
        have htail := ih (Nat.succ.inj h)
        simp only [dot, List.zipWith_cons_cons, List.sum_cons] at htail ⊢
        rw [htail]
        ring

end CommRing

/-- The norm of a vector that is not zero. -/
theorem dot_self_pos [Ring K] [LinearOrder K] [IsStrictOrderedRing K] {r : List K}
    (h : ∃ x ∈ r, x ≠ 0) :
    0 < dot r r := by
  have hnonneg : ∀ r : List K, 0 ≤ dot r r := fun r => by
    induction r with
    | nil => exact le_rfl
    | cons x r ih =>
      rw [dot, List.zipWith_cons_cons, List.sum_cons]
      exact add_nonneg (mul_self_nonneg x) ih
  induction r with
  | nil => simp at h
  | cons x r ih =>
    rw [dot, List.zipWith_cons_cons, List.sum_cons]
    by_cases hx : x = 0
    · rw [hx, mul_zero, zero_add]
      exact ih (by simpa [hx] using h)
    · exact add_pos_of_pos_of_nonneg (mul_self_pos.mpr hx) (hnonneg r)

end Torch
