import Mathlib.Data.Int.Log
import Mathlib.Order.Bounds.Basic
import Mathlib.Tactic.Linarith

/-!
# Nice numbers

Some factors between one and a base, times the powers of the base: the numbers that look well at an
axis. A number is rounded up to the next of them by trying the factors in order at the power of the
base below it.

## What is proved

* `isLeast_roundUp` — the result is the least nice number that is at least the given one.
-/

namespace NiceNumbers

variable {α : Type*} [Field α] [LinearOrder α] [IsStrictOrderedRing α] [FloorSemiring α]

/-- The first factor that reaches `x` at the power of the base below it, the base itself if none
does. -/
def roundUp (b : ℕ) (fs : List α) (x : α) : α :=
  ((fs.find? fun f => x ≤ f * (b : α) ^ Int.log b x).getD b) * (b : α) ^ Int.log b x

/-- Factors in order, from one to the base. -/
structure Factors (b : ℕ) (fs : List α) : Prop where
  one : fs.head? = some 1
  base : (b : α) ∈ fs
  sorted : fs.Pairwise (· < ·)
  le : ∀ f ∈ fs, f ≤ b

/-- A factor times a power of the base. -/
def Nice (b : ℕ) (fs : List α) (y : α) : Prop := ∃ f ∈ fs, ∃ k : ℤ, y = f * (b : α) ^ k

variable {b : ℕ} {fs : List α} {x : α}

omit [FloorSemiring α] [IsStrictOrderedRing α] in
theorem Factors.one_le (h : Factors b fs) {f : α} (hf : f ∈ fs) : 1 ≤ f := by
  obtain ⟨gs, rfl⟩ := List.head?_eq_some_iff.mp h.one
  rcases List.mem_cons.mp hf with rfl | hf
  · exact le_rfl
  · exact ((List.pairwise_cons.mp h.sorted).1 f hf).le

/-- The factor that is taken: it reaches `x`, and no smaller one does. -/
theorem roundUp_spec (hb : 1 < b) (h : Factors b fs) :
    ∃ f ∈ fs, roundUp b fs x = f * (b : α) ^ Int.log b x ∧ x ≤ f * (b : α) ^ Int.log b x ∧
      ∀ g ∈ fs, x ≤ g * (b : α) ^ Int.log b x → f ≤ g := by
  have hpos : (0 : α) < b := by exact_mod_cast Nat.zero_lt_of_lt hb
  have hbase : x ≤ b * (b : α) ^ Int.log b x := by
    rw [← zpow_one_add₀ hpos.ne', add_comm]
    exact (Int.lt_zpow_succ_log_self hb x).le
  cases hfind : fs.find? fun f => x ≤ f * (b : α) ^ Int.log b x with
  | none => exact absurd hbase (by simpa using List.find?_eq_none.mp hfind b h.base)
  | some f =>
    have hf : x ≤ f * (b : α) ^ Int.log b x := by simpa using List.find?_some hfind
    refine ⟨f, List.mem_of_find?_eq_some hfind, by rw [roundUp, hfind]; rfl, hf, fun g hg hxg => ?_⟩
    obtain ⟨-, pre, post, heq, hpre⟩ := List.find?_eq_some_iff_append.mp hfind
    rw [heq] at hg
    rcases List.mem_append.mp hg with hg | hg
    · exact absurd hxg (by simpa using hpre g hg)
    · have hsorted := (List.pairwise_append.mp (heq ▸ h.sorted)).2.1
      rcases List.mem_cons.mp hg with rfl | hg
      · exact le_rfl
      · exact ((List.pairwise_cons.mp hsorted).1 g hg).le

/-- **The next nice number.** -/
theorem isLeast_roundUp (hb : 1 < b) (h : Factors b fs) (hx : 0 < x) :
    IsLeast {y | Nice b fs y ∧ x ≤ y} (roundUp b fs x) := by
  have hpos : (0 : α) < b := by exact_mod_cast Nat.zero_lt_of_lt hb
  have hone : (1 : α) ≤ b := by exact_mod_cast hb.le
  obtain ⟨f, hf, heq, hxf, hleast⟩ := roundUp_spec (x := x) hb h
  refine ⟨⟨⟨f, hf, _, heq⟩, heq ▸ hxf⟩, ?_⟩
  rintro y ⟨⟨g, hg, k, rfl⟩, hxy⟩
  have hlow := Int.zpow_log_le_self (R := α) hb hx
  have hlog : (0 : α) < (b : α) ^ Int.log b x := zpow_pos hpos _
  have hk : (0 : α) < (b : α) ^ k := zpow_pos hpos _
  rw [heq]
  rcases lt_trichotomy k (Int.log b x) with hlt | rfl | hlt
  · -- the number is at most the power below `x`, so all three are the same
    have hstep : g * (b : α) ^ k ≤ (b : α) ^ Int.log b x := by
      calc g * (b : α) ^ k ≤ b * (b : α) ^ k := mul_le_mul_of_nonneg_right (h.le g hg) hk.le
        _ = (b : α) ^ (k + 1) := by rw [add_comm, zpow_one_add₀ hpos.ne']
        _ ≤ (b : α) ^ Int.log b x := zpow_le_zpow_right₀ hone (by omega)
    have hfirst : f ≤ 1 := by
      refine hleast 1 (List.mem_of_mem_head? (h.one ▸ rfl)) ?_
      rw [one_mul]
      exact hxy.trans hstep
    calc f * (b : α) ^ Int.log b x ≤ 1 * (b : α) ^ Int.log b x :=
      mul_le_mul_of_nonneg_right hfirst hlog.le
      _ ≤ x := by rwa [one_mul]
      _ ≤ g * (b : α) ^ k := hxy
  · exact mul_le_mul_of_nonneg_right (hleast g hg hxy) hlog.le
  · calc f * (b : α) ^ Int.log b x ≤ b * (b : α) ^ Int.log b x :=
      mul_le_mul_of_nonneg_right (h.le f hf) hlog.le
      _ = (b : α) ^ (Int.log b x + 1) := by rw [add_comm, zpow_one_add₀ hpos.ne']
      _ ≤ (b : α) ^ k := zpow_le_zpow_right₀ hone (by omega)
      _ ≤ g * (b : α) ^ k := le_mul_of_one_le_left hk.le (h.one_le hg)

/-- The power below and the power above. -/
theorem log_bounds (hb : 1 < b) (hx : 0 < x) :
    (b : α) ^ Int.log b x ≤ x ∧ x < b * (b : α) ^ Int.log b x := by
  have hpos : (0 : α) < b := by exact_mod_cast Nat.zero_lt_of_lt hb
  refine ⟨Int.zpow_log_le_self hb hx, ?_⟩
  rw [← zpow_one_add₀ hpos.ne', add_comm]
  exact Int.lt_zpow_succ_log_self hb x

end NiceNumbers
