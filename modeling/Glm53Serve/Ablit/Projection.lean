import Glm53Serve.Torch.Vectors
import Mathlib.Algebra.Order.Ring.Rat
import Mathlib.Tactic.FieldSimp

/-!
# The projection of the load-time edit

`apply_to_o_proj` of `overlay/ablit_runtime.py` takes from a weight `W` the part along a
direction `r`, times `alpha`: `W' = (I - alpha * r r^T / ||r||^2) W`.

## The model

The elements are of an ordered field: arithmetic is exact and the conversions of the element
type do nothing. A module is its two-dimensional `.weight`, `none` where there is none; the call
returns what is in it and the report.

## What is proved

* `applyToOProj_spec` — what the edit does along the direction and across it, what two edits
  do, and that the edit of a slice of columns is the slice of the edit.
* `applyToOProj_report` — what is left along the direction, as the report says.
* `applyToOProj_shards` — the edits of the ranks, side by side, are the edit.
-/

namespace Glm53Serve.Ablit

open Torch

variable {K : Type*} [Field K]

/-- Why a module is not edited. -/
inductive Unedited where
  /-- "no 2-D .weight". -/
  | noWeight
  /-- "out_features={weight.shape[0]} != direction dim {r.numel()}". -/
  | outFeatures (height dim : ℕ)
  deriving DecidableEq

/-- The report of a module. -/
inductive ProjReport (K : Type*) where
  | unedited (reason : Unedited)
  | edited (shape : ℕ × ℕ) (residualMax : K)

/-- What a call leaves. -/
structure Projected (K : Type*) where
  weight : Option (Mat K)
  /-- `none` where `max()` raises, of no elements. -/
  report : Option (ProjReport K)

/-- `delta`. -/
def projDelta (r : List K) (alpha : K) (w32 : Mat K) : Mat K :=
  (outer r (vecMul r w32)).map fun x => alpha * x / dot r r

/-- `float((r_dev @ weight).abs().max())`. -/
def residual [LinearOrder K] (r : List K) (weight : Mat K) : Option K :=
  ((vecMul r weight).map (|·|)).max?

/-- `apply_to_o_proj(mod, r, alpha)`. -/
def applyToOProj [LinearOrder K] (mod : Option (Mat K)) (r : List K) (alpha : K) : Projected K :=
  match mod with
  | none => ⟨none, some (.unedited .noWeight)⟩
  | some weight =>
    if weight.height ≠ r.length then
      ⟨some weight, some (.unedited (.outFeatures weight.height r.length))⟩
    else
      let edit := weight.sub (projDelta r alpha weight)
      ⟨some edit, (residual r edit).map (.edited (weight.height, weight.cols))⟩

/-! ### The edit by columns -/

variable {r : List K} {alpha : K} {W : Mat K}

@[simp] theorem cols_sub_projDelta : (W.sub (projDelta r alpha W)).cols = W.cols := by
  simp [Mat.sub, projDelta, Mat.map, outer]

theorem height_sub_projDelta (h : W.height = r.length) :
    (W.sub (projDelta r alpha W)).height = W.height := by
  simp only [Mat.height] at h
  simp [Mat.sub, projDelta, Mat.map, outer, Mat.height, h]

/-- A column of the edit. -/
theorem col_sub_projDelta {j : ℕ} (hj : j < W.cols) : (W.sub (projDelta r alpha W)).col j =
    List.zipWith (fun y x => y - x * (alpha * dot r (W.col j) / dot r r)) (W.col j) r := by
  rw [projDelta, col_sub_outer W r _ _ hj (length_vecMul r W)]
  congr 1
  funext y x
  rw [vecMul, List.getD_eq_getElem?_getD, List.getElem?_map, List.getElem?_range hj]
  simp only [Option.map_some, Option.getD_some]
  ring

/-- The product with a column of the edit. -/
theorem dot_col_sub_projDelta (v : List K) (h : W.height = r.length) {j : ℕ} (hj : j < W.cols) :
    dot v ((W.sub (projDelta r alpha W)).col j) =
      dot v (W.col j) - dot v r * (alpha * dot r (W.col j) / dot r r) := by
  rw [col_sub_projDelta hj, dot_sub_outer _ (by rw [length_col, h])]

/-- Across the direction. -/
theorem vecMul_orthogonal {v : List K} (h : W.height = r.length) (hv : dot v r = 0) :
    vecMul v (W.sub (projDelta r alpha W)) = vecMul v W := by
  have hmap : vecMul v (W.sub (projDelta r alpha W)) = (vecMul v W).map id := by
    refine vecMul_eq_of_col cols_sub_projDelta fun j hj => ?_
    rw [cols_sub_projDelta] at hj
    rw [dot_col_sub_projDelta v h hj, hv, zero_mul, sub_zero, id]
  rwa [List.map_id] at hmap

/-- The edit of a slice is the slice of the edit. -/
theorem slice_sub_projDelta (h : W.height = r.length) (lo hi : ℕ) :
    (W.slice lo hi).sub (projDelta r alpha (W.slice lo hi)) =
      (W.sub (projDelta r alpha W)).slice lo hi := by
  have hslice : (W.slice lo hi).height = r.length := by simpa [Mat.slice, Mat.height] using h
  refine Mat.ext_col ?_ (by simp [Mat.slice]) fun j hj => ?_
  · rw [height_sub_projDelta hslice]
    have hheight : (W.sub (projDelta r alpha W)).height = W.height := height_sub_projDelta h
    simpa [Mat.slice, Mat.height] using hheight.symm
  · rw [cols_sub_projDelta] at hj
    have hcols : lo + j < W.cols := by simp only [Mat.slice] at hj; omega
    have hj' : j < ((W.sub (projDelta r alpha W)).slice lo hi).cols := by
      simpa [Mat.slice] using hj
    rw [col_sub_projDelta hj, col_slice _ hj', col_sub_projDelta hcols, col_slice _ hj]

variable [LinearOrder K]

theorem applyToOProj_weight (h : W.height = r.length) :
    (applyToOProj (some W) r alpha).weight = some (W.sub (projDelta r alpha W)) := by
  simp [applyToOProj, h]

/-- The edits of the ranks, each of its shard, side by side. -/
theorem applyToOProj_shards (h : W.height = r.length) {width world : ℕ}
    (hcols : W.cols = width * world)
    {W' : Mat K} (hW' : (applyToOProj (some W) r alpha).weight = some W') :
    hcat W.height ((List.range world).filterMap fun rank =>
      (applyToOProj (some (W.slice (rank * width) ((rank + 1) * width))) r alpha).weight) =
        W'.rows := by
  rw [applyToOProj_weight h] at hW'
  obtain rfl := Option.some.inj hW'
  have hshard :
    ∀ rank, (applyToOProj (some (W.slice (rank * width) ((rank + 1) * width))) r alpha).weight =
      some ((W.sub (projDelta r alpha W)).slice (rank * width) ((rank + 1) * width)) :=
          fun rank => by
    rw [applyToOProj_weight (by simpa [Mat.slice, Mat.height] using h), slice_sub_projDelta h]
  simp only [hshard]
  rw [List.filterMap_eq_map', ← hcat_slices _ (cols_sub_projDelta.trans hcols),
    height_sub_projDelta h]

/-! ### The call -/

variable [IsStrictOrderedRing K]

/-- Along the direction. -/
theorem vecMul_direction (hr : ∃ x ∈ r, x ≠ 0) (h : W.height = r.length) :
    vecMul r (W.sub (projDelta r alpha W)) = (vecMul r W).map ((1 - alpha) * ·) := by
  have hpos := (dot_self_pos hr).ne'
  refine vecMul_eq_of_col cols_sub_projDelta fun j hj => ?_
  rw [cols_sub_projDelta] at hj
  rw [dot_col_sub_projDelta r h hj]
  field_simp

/-- Two edits are one. -/
theorem sub_projDelta_twice (hr : ∃ x ∈ r, x ≠ 0) (h : W.height = r.length) (alpha beta : K) :
    (W.sub (projDelta r alpha W)).sub (projDelta r beta (W.sub (projDelta r alpha W))) =
      W.sub (projDelta r (alpha + beta - alpha * beta) W) := by
  have hpos := (dot_self_pos hr).ne'
  have h' : (W.sub (projDelta r alpha W)).height = r.length := (height_sub_projDelta h).trans h
  refine Mat.ext_col ?_ (by simp) fun j hj => ?_
  · rw [height_sub_projDelta h', height_sub_projDelta h, height_sub_projDelta h]
  · rw [cols_sub_projDelta] at hj
    have hjW : j < W.cols := by rwa [cols_sub_projDelta] at hj
    rw [col_sub_projDelta hj, dot_col_sub_projDelta r h hjW, col_sub_projDelta hjW,
      col_sub_projDelta hjW]
    refine List.ext_getElem (by simp) fun i hi hi' => ?_
    simp only [List.getElem_zipWith]
    field_simp
    ring

/-- **The projection**: the product with the direction is scaled by `1 - alpha`, that with a vector
orthogonal to it is kept, two edits are one, and the edit commutes with slicing the columns. -/
theorem applyToOProj_spec (hr : ∃ x ∈ r, x ≠ 0) (h : W.height = r.length) (alpha : K) :
    ∃ W', (applyToOProj (some W) r alpha).weight = some W' ∧
      W'.height = W.height ∧ W'.cols = W.cols ∧
      vecMul r W' = (vecMul r W).map ((1 - alpha) * ·) ∧
      (∀ v : List K, v.length = r.length → dot v r = 0 → vecMul v W' = vecMul v W) ∧
      (∀ beta, (applyToOProj (some W') r beta).weight =
        (applyToOProj (some W) r (alpha + beta - alpha * beta)).weight) ∧
      ∀ lo hi, (applyToOProj (some (W.slice lo hi)) r alpha).weight = some (W'.slice lo hi) := by
  refine ⟨W.sub (projDelta r alpha W), applyToOProj_weight h, height_sub_projDelta h,
    cols_sub_projDelta,
    vecMul_direction hr h, fun v _ hv => vecMul_orthogonal h hv, fun beta => ?_, fun lo hi => ?_⟩
  · rw [applyToOProj_weight ((height_sub_projDelta h).trans h), applyToOProj_weight h,
      sub_projDelta_twice hr h]
  · rw [applyToOProj_weight (by simpa [Mat.slice, Mat.height] using h), slice_sub_projDelta h]

/-- The first direction of the plane, with the published scale. -/
theorem applyToOProj_spec_plane : ∃ W' : Mat ℚ,
    (applyToOProj (some ⟨[[1, 2], [3, 4]], 2, by decide⟩) [1, 0] 3).weight = some W' ∧
      vecMul [1, 0] W' = (vecMul [1, 0] ⟨[[1, 2], [3, 4]], 2, by decide⟩).map ((1 - 3) * ·) := by
  obtain ⟨W', hW', -, -, hdirection, -⟩ := applyToOProj_spec (r := [(1 : ℚ), 0])
    (W := ⟨[[1, 2], [3, 4]], 2, by decide⟩) ⟨1, by decide, by decide⟩ rfl 3
  exact ⟨W', hW', hdirection⟩

/-- What is left along the direction, as the report says. -/
theorem applyToOProj_report (hr : ∃ x ∈ r, x ≠ 0) (h : W.height = r.length) (alpha : K) :
    (applyToOProj (some W) r alpha).report =
      (((vecMul r W).map fun x => |(1 - alpha) * x|).max?).map (.edited (W.height, W.cols)) := by
  simp [applyToOProj, h, residual, vecMul_direction hr h, List.map_map, Function.comp_def]

end Glm53Serve.Ablit
