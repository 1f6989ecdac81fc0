import Mathlib.Data.List.Range
import Mathlib.Tactic.Ring

/-!
# Tilings by ranges

Ranges of naturals that follow one another, none of them empty, from one end to the other.
A range is its first element and the one after its last.

## What is proved

* `Tiles.covers` — the elements of the ranges, in order, are those of the whole range.
* `tiles_steps` — the steps of one length, the last one cut short, tile.
-/

namespace Ranges

/-- The ranges, one after the other and none of them empty, cover `a ..< b`. -/
inductive Tiles : ℕ → ℕ → List (ℕ × ℕ) → Prop
  | nil (a : ℕ) : Tiles a a []
  | cons {a b c : ℕ} {rs : List (ℕ × ℕ)} (h : a < b) (hrs : Tiles b c rs) : Tiles a c ((a, b) :: rs)

namespace Tiles

variable {a b c : ℕ} {rs : List (ℕ × ℕ)}

theorem le (h : Tiles a b rs) : a ≤ b := by
  induction h with
  | nil a => exact le_rfl
  | cons hab _ ih => exact hab.le.trans ih

/-- The ranges hold every element once, in order. -/
theorem covers (h : Tiles a b rs) :
    rs.flatMap (fun r => List.range' r.1 (r.2 - r.1)) = List.range' a (b - a) := by
  induction h with
  | nil a => simp
  | @cons a b c rs hab hrs ih =>
    have hbc := hrs.le
    rw [List.flatMap_cons, ih]
    have happ := @List.range'_append a (b - a) (c - b) 1
    rwa [one_mul, Nat.add_sub_cancel' hab.le, show b - a + (c - b) = c - a by omega] at happ

/-- Every range lies inside, and is not empty. -/
theorem bounds (h : Tiles a b rs) {r : ℕ × ℕ} (hr : r ∈ rs) : a ≤ r.1 ∧ r.1 < r.2 ∧ r.2 ≤ b := by
  induction h with
  | nil a => cases hr
  | cons hab hrs ih =>
    rcases List.mem_cons.mp hr with rfl | hr
    · exact ⟨le_rfl, hab, hrs.le⟩
    · obtain ⟨h1, h2, h3⟩ := ih hr
      exact ⟨hab.le.trans h1, h2, h3⟩

end Tiles

/-- The steps of length `q` over `0 ..< m`, the last one cut short. -/
def steps (m q : ℕ) : List (ℕ × ℕ) :=
  (List.range ((m + q - 1) / q)).map fun i => (i * q, i * q + min q (m - i * q))

theorem tiles_steps_from {m q : ℕ} (hq : 0 < q) (k : ℕ) : ∀ i, i + k = (m + q - 1) / q →
    Tiles (min (i * q) m) m ((List.range' i k).map fun i =>
      (i * q, i * q + min q (m - i * q))) := by
  induction k with
  | zero =>
    intro i hi
    have hle : m ≤ i * q := by
      have := Nat.lt_mul_div_succ (m + q - 1) hq
      rw [← hi, Nat.add_zero, Nat.mul_succ, Nat.mul_comm] at this
      omega
    rw [min_eq_right hle]
    exact .nil m
  | succ k ih =>
    intro i hi
    have hlt : i * q < m := by
      have : (i + 1) * q ≤ m + q - 1 :=
        (Nat.le_div_iff_mul_le hq).mp (by omega)
      rw [Nat.add_mul, Nat.one_mul] at this
      omega
    have hnext : i * q + min q (m - i * q) = min ((i + 1) * q) m := by
      rw [Nat.add_mul, Nat.one_mul]
      omega
    rw [min_eq_left hlt.le, List.range'_succ, List.map_cons, hnext]
    refine .cons ?_ (ih (i + 1) (by omega))
    rw [Nat.add_mul, Nat.one_mul]
    omega

theorem tiles_steps {q : ℕ} (hq : 0 < q) (m : ℕ) : Tiles 0 m (steps m q) := by
  have h := tiles_steps_from (m := m) hq ((m + q - 1) / q) 0 (Nat.zero_add _)
  rwa [Nat.zero_mul, Nat.zero_min, ← List.range_eq_range'] at h

/-- A step that holds the whole range is the only one. -/
theorem steps_of_le {m q : ℕ} (hq : 0 < q) (h : m ≤ q) :
    steps m q = if m = 0 then [] else [(0, m)] := by
  split_ifs with hm
  · subst hm
    rw [steps, Nat.zero_add, Nat.div_eq_of_lt (by omega)]
    rfl
  · have hone : (m + q - 1) / q = 1 := by
      rw [Nat.div_eq_iff hq]
      omega
    simp [steps, hone, h]

/-- A step is no longer than `q`. -/
theorem length_step {m q : ℕ} {r : ℕ × ℕ} (hr : r ∈ steps m q) : r.2 - r.1 ≤ q := by
  obtain ⟨i, -, rfl⟩ := List.mem_map.mp hr
  simp only [Nat.add_sub_cancel_left]
  exact min_le_left _ _

end Ranges
