import Mathlib.Data.List.Basic
import Mathlib.Data.List.Flatten

/-!
# Matrices and their column slices

A two-dimensional tensor as its rows. A weight that is sharded by its input dimension is
cut into slices of columns, one for every rank.

## What is proved

* `take_chunks` — the chunks of a list, one after the other, are the list.
* `hcat_slices` — the slices of all the ranks, side by side, are the matrix.
-/

namespace Torch

universe u

variable {α : Type u}

/-- A two-dimensional tensor. -/
structure Mat (α : Type u) where
  rows : List (List α)
  /-- `t.shape[1]`. -/
  cols : ℕ
  /-- The rows are of one length. -/
  len : ∀ r ∈ rows, r.length = cols

@[ext] theorem Mat.ext {m m' : Mat α} (hr : m.rows = m'.rows) (hc : m.cols = m'.cols) : m = m' := by
  cases m
  cases m'
  cases hr
  cases hc
  rfl

/-- `t.shape[0]`. -/
def Mat.height (m : Mat α) : ℕ := m.rows.length

/-- `t[:, lo:hi]`. -/
def Mat.slice (m : Mat α) (lo hi : ℕ) : Mat α where
  rows := m.rows.map fun r => (r.drop lo).take (hi - lo)
  cols := min hi m.cols - lo
  len := by
    simp only [List.mem_map]
    rintro _ ⟨r, hr, rfl⟩
    rw [List.length_take, List.length_drop, m.len r hr]
    omega

theorem Mat.slice_all (m : Mat α) : m.slice 0 m.cols = m := by
  refine Mat.ext ?_ (by simp [slice])
  have h : ∀ r ∈ m.rows, (r.drop 0).take (m.cols - 0) = id r := fun r hr => by simp [← m.len r hr]
  exact (List.map_congr_left h).trans (List.map_id _)

/-- `torch.cat(ms, dim=1)` of tensors of one height. -/
def hcat (height : ℕ) (ms : List (Mat α)) : List (List α) :=
  (List.range height).map fun i => ms.flatMap fun m => m.rows.getD i []

theorem take_chunks (xs : List α) (width count : ℕ) :
    (List.range count).flatMap (fun r => (xs.drop (r * width)).take width) =
      xs.take (count * width) := by
  induction count with
  | zero => simp
  | succ count ih =>
    rw [List.range_succ, List.flatMap_append, ih, Nat.succ_mul, List.take_add]; simp

/-- The slices of `count` columns each, side by side. -/
theorem hcat_slices (m : Mat α) {width count : ℕ} (h : m.cols = width * count) :
    hcat m.height ((List.range count).map fun r => m.slice (r * width) ((r + 1) * width)) =
      m.rows := by
  refine List.ext_getElem (by simp [hcat, Mat.height]) fun i hi hi' => ?_
  have hlen : m.rows[i].length = width * count := h ▸ m.len _ (List.getElem_mem hi')
  simp only [hcat, List.getElem_map, List.getElem_range, List.flatMap_map]
  rw [← List.take_length (l := m.rows[i]), hlen, Nat.mul_comm, ← take_chunks]
  refine List.flatMap_congr fun r _ => ?_
  simp [Mat.slice, Nat.succ_mul, List.getElem?_eq_getElem hi']

end Torch
