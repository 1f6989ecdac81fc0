import Mathlib.Data.List.Forall2

/-!
# `mapM` in `Except`

A loop that converts the entries of a list and stops at the first error.

## What is proved

* `mapM_ok_iff` — the loop returns what the entries are converted to.
* `exists_mapM_ok_iff` — it returns exactly if every entry can be converted.
* `mapM_range_error_iff` — it raises what the first conversion raises that fails.
-/

namespace Except

variable {ε α β : Type}

theorem bind_eq_ok {x : Except ε α} {f : α → Except ε β} {b : β} :
    (x >>= f) = .ok b ↔ ∃ a, x = .ok a ∧ f a = .ok b := by
  cases x with
  | error e => exact iff_of_false (fun h => by cases h) (fun ⟨a, h, _⟩ => by cases h)
  | ok a => exact ⟨fun h => ⟨a, rfl, h⟩, fun ⟨a', ha, h⟩ => by cases ha; exact h⟩

theorem mapM_ok_iff {f : α → Except ε β} {xs : List α} : ∀ {ys : List β},
    xs.mapM f = .ok ys ↔ List.Forall₂ (fun x y => f x = .ok y) xs ys := by
  induction xs with
  | nil =>
    intro ys
    rw [List.mapM_nil, List.forall₂_nil_left_iff]
    exact ⟨fun h => (Except.ok.inj h).symm, fun h => by rw [h]; rfl⟩
  | cons x xs ih =>
    intro ys
    simp only [List.mapM_cons, bind_eq_ok, List.forall₂_cons_left_iff, ih]
    constructor
    · rintro ⟨y, hy, zs, hzs, hys⟩
      exact ⟨y, zs, hy, hzs, (Except.ok.inj hys).symm⟩
    · rintro ⟨y, zs, hy, hzs, rfl⟩
      exact ⟨y, hy, zs, hzs, rfl⟩

/-- A loop none of whose conversions fails. -/
theorem mapM_eq_map {f : α → Except ε β} {g : α → β} {xs : List α} (h : ∀ x ∈ xs, f x = .ok (g x)) :
    xs.mapM f = .ok (xs.map g) := by
  rw [mapM_ok_iff, List.forall₂_map_right_iff, List.forall₂_same]
  exact h

theorem exists_mapM_ok_iff {f : α → Except ε β} {xs : List α} :
    (∃ ys, xs.mapM f = .ok ys) ↔ ∀ x ∈ xs, ∃ y, f x = .ok y := by
  simp only [mapM_ok_iff]
  induction xs with
  | nil => exact ⟨fun _ => by simp, fun _ => ⟨[], .nil⟩⟩
  | cons x xs ih =>
    rw [List.forall_mem_cons, ← ih]
    constructor
    · rintro ⟨ys, h⟩
      rcases h with _ | ⟨hy, h⟩
      exact ⟨⟨_, hy⟩, ⟨_, h⟩⟩
    · rintro ⟨⟨y, hy⟩, ⟨ys, h⟩⟩
      exact ⟨y :: ys, .cons hy h⟩

/-- A result of the loop is the result of one of its conversions. -/
theorem exists_of_mem_mapM {f : α → Except ε β} {xs : List α} {ys : List β} (h : xs.mapM f = .ok ys)
    {y : β} (hy : y ∈ ys) : ∃ x ∈ xs, f x = .ok y := by
  rw [mapM_ok_iff] at h
  induction h with
  | nil => cases hy
  | @cons x y' xs ys hx _ ih =>
    rcases List.mem_cons.mp hy with rfl | hy
    · exact ⟨x, List.mem_cons_self, hx⟩
    · obtain ⟨x', hx', hf⟩ := ih hy
      exact ⟨x', List.mem_cons_of_mem _ hx', hf⟩

/-- A loop over numbers raises what the first of its bodies raises that fails. -/
theorem mapM_range_error_iff {f : ℕ → Except ε β} {n : ℕ} {e : ε} :
    (List.range n).mapM f = .error e ↔ ∃ i < n, (∀ j < i, ∃ y, f j = .ok y) ∧ f i = .error e := by
  induction n with
  | zero => simp [pure, Except.pure]
  | succ n ih =>
    have hsucc (i : ℕ) : i < n + 1 ↔ i < n ∨ i = n := Nat.lt_succ_iff_lt_or_eq
    rw [List.range_succ, List.mapM_append, List.mapM_cons, List.mapM_nil]
    simp only [hsucc, or_and_right, exists_or, exists_eq_left, ← ih]
    cases hxs : (List.range n).mapM f with
    | error e' =>
      have hfails : ¬∀ j < n, ∃ y, f j = .ok y := fun h => by
        obtain ⟨ys, hys⟩ := exists_mapM_ok_iff.mpr fun j hj => h j (List.mem_range.mp hj)
        rw [hxs] at hys
        cases hys
      simp [hfails, bind, Except.bind]
    | ok ys =>
      have hall : ∀ j < n, ∃ y, f j = .ok y := fun j hj =>
        exists_mapM_ok_iff.mp ⟨ys, hxs⟩ j (List.mem_range.mpr hj)
      cases hn : f n with
      | error e' =>
        simp only [bind, Except.bind, Except.error.injEq, reduceCtorEq, false_or]
        exact ⟨fun h => ⟨hall, h⟩, And.right⟩
      | ok y => simp [bind, Except.bind, pure, Except.pure]

end Except
