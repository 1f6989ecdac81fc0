import Mathlib.Data.List.GetD
import Mathlib.Data.List.Basic

/-!
# Buffers of blocks

A buffer holds the blocks of several owners, one after the other, each of the same size. What maps
row by row, or joins two buffers row by row, leaves the blocks apart.

## What is proved

* `Same.map`, `Same.zipWith` — row by row, the same blocks lead to the same blocks.
* `Same.getD`, `same_of_getD` — a block read row by row.
-/

universe u v w

namespace Blocks

variable {α : Type u} {β : Type v} {γ : Type w}

/-- The block `b` of one buffer is the block `b'` of another one. -/
structure Same (size : ℕ) (l l' : List α) (b b' : ℕ) : Prop where
  full : (b + 1) * size ≤ l.length
  full' : (b' + 1) * size ≤ l'.length
  row : ∀ i < size, l[b * size + i]? = l'[b' * size + i]?

variable {size b b' : ℕ}

theorem lt_of_full {n i : ℕ} (h : (b + 1) * size ≤ n) (hi : i < size) : b * size + i < n := by
  rw [Nat.succ_mul] at h
  omega

theorem Same.map {l l' : List α} (h : Same size l l' b b') (f : α → β) :
    Same size (l.map f) (l'.map f) b b' where
  full := by simpa using h.full
  full' := by simpa using h.full'
  row i hi := by rw [List.getElem?_map, List.getElem?_map, h.row i hi]

theorem Same.zipWith {l l' : List α} {k k' : List β} (h : Same size l l' b b')
    (hk : Same size k k' b b')
    (f : α → β → γ) : Same size (List.zipWith f l k) (List.zipWith f l' k') b b' where
  full := by
    rw [List.length_zipWith]
    exact Nat.le_min.mpr ⟨h.full, hk.full⟩
  full' := by
    rw [List.length_zipWith]
    exact Nat.le_min.mpr ⟨h.full', hk.full'⟩
  row i hi := by rw [List.getElem?_zipWith, List.getElem?_zipWith, h.row i hi, hk.row i hi]

theorem Same.getD {l l' : List α} (h : Same size l l' b b') {i : ℕ} (hi : i < size) (d : α) :
    l.getD (b * size + i) d = l'.getD (b' * size + i) d := by
  rw [List.getD_eq_getElem?_getD, List.getD_eq_getElem?_getD, h.row i hi]

/-- Blocks that are read row by row. -/
theorem same_of_getD {l l' : List α} {d : α} (hfull : (b + 1) * size ≤ l.length)
    (hfull' : (b' + 1) * size ≤ l'.length)
    (hrow : ∀ i < size, l.getD (b * size + i) d = l'.getD (b' * size + i) d) :
    Same size l l' b b' where
  full := hfull
  full' := hfull'
  row i hi := by
    have hlt := lt_of_full hfull hi
    have hlt' := lt_of_full hfull' hi
    have h := hrow i hi
    rw [List.getD_eq_getElem _ _ hlt, List.getD_eq_getElem _ _ hlt'] at h
    rw [List.getElem?_eq_getElem hlt, List.getElem?_eq_getElem hlt', h]

end Blocks
