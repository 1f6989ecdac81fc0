import Mathlib.Algebra.Group.Prod
import Mathlib.Algebra.Order.Group.Defs
import Mathlib.Data.List.Chain
import Mathlib.Tactic.Abel

/-!
# Totals over adjacent samples

A quantity that each two adjacent samples of a series contribute to, summed over the
series: a length, an integral, a number of jumps.

## What is proved

* `foldl_adjacent` — a loop over adjacent samples that adds to an accumulator.
* `total_split` — a series may be cut at a sample that both parts keep.
* `total_sub` — differences add up to the last value less the first.
* `total_le_total` — a bound on each contribution bounds the total.
-/

namespace Series

variable {α M N : Type*}

section Monoid

variable [AddCommMonoid M] {f g : α → α → M}

/-- The sum of `f` over the adjacent elements of a list. -/
def total (f : α → α → M) : List α → M
  | x :: y :: xs => f x y + total f (y :: xs)
  | _ => 0

@[simp] theorem total_nil (f : α → α → M) : total f [] = 0 := rfl

@[simp] theorem total_singleton (f : α → α → M) (x : α) : total f [x] = 0 := rfl

@[simp] theorem total_cons_cons (f : α → α → M) (x y : α) (xs : List α) :
    total f (x :: y :: xs) = f x y + total f (y :: xs) := rfl

/-- A loop over adjacent elements that adds to an accumulator. -/
theorem foldl_adjacent (f : α → α → M) (xs : List α) (a : M) :
    (xs.zip xs.tail).foldl (fun acc p => acc + f p.1 p.2) a = a + total f xs := by
  induction xs generalizing a with
  | nil => simp
  | cons x xs ih =>
    cases xs with
    | nil => simp
    | cons y xs =>
      rw [List.tail_cons, List.zip_cons_cons, List.foldl_cons]
      calc _ = a + f x y + total f (y :: xs) := ih (a + f x y)
        _ = a + total f (x :: y :: xs) := by rw [total_cons_cons, add_assoc]

/-- Both parts keep the element at the cut. -/
theorem total_append (f : α → α → M) (xs : List α) (x : α) (ys : List α) :
    total f (xs ++ x :: ys) = total f (xs ++ [x]) + total f (x :: ys) := by
  induction xs with
  | nil => simp
  | cons z xs ih =>
    cases xs with
    | nil => simp
    | cons w xs =>
      simp only [List.cons_append, total_cons_cons] at ih ⊢
      rw [ih, add_assoc]

theorem total_split (f : α → α → M) {xs : List α} {i : ℕ} (h : i < xs.length) :
    total f xs = total f (xs.take (i + 1)) + total f (xs.drop i) := by
  have hx : xs = xs.take i ++ xs[i] :: xs.drop (i + 1) := by
    rw [← List.drop_eq_getElem_cons h, List.take_append_drop]
  calc total f xs = total f (xs.take i ++ xs[i] :: xs.drop (i + 1)) := by rw [← hx]
    _ = total f (xs.take i ++ [xs[i]]) + total f (xs[i] :: xs.drop (i + 1)) := total_append ..
    _ = total f (xs.take (i + 1)) + total f (xs.drop i) := by
      rw [List.take_append_getElem h, ← List.drop_eq_getElem_cons h]

theorem total_add (f g : α → α → M) (xs : List α) :
    total (fun x y => f x y + g x y) xs = total f xs + total g xs := by
  induction xs with
  | nil => simp
  | cons x xs ih =>
    cases xs with
    | nil => simp
    | cons y xs => rw [total_cons_cons, total_cons_cons, total_cons_cons, ih, add_add_add_comm]

theorem map_total [AddCommMonoid N] (φ : M →+ N) (f : α → α → M) (xs : List α) :
    φ (total f xs) = total (fun x y => φ (f x y)) xs := by
  induction xs with
  | nil => simp
  | cons x xs ih =>
    cases xs with
    | nil => simp
    | cons y xs => rw [total_cons_cons, total_cons_cons, map_add, ih]

/-- Contributions that agree on adjacent elements. -/
theorem total_congr {xs : List α} (h : xs.IsChain fun x y => f x y = g x y) :
    total f xs = total g xs := by
  induction xs with
  | nil => rfl
  | cons x xs ih =>
    cases xs with
    | nil => rfl
    | cons y xs =>
      obtain ⟨hxy, hxs⟩ := List.isChain_cons_cons.1 h
      rw [total_cons_cons, total_cons_cons, hxy, ih hxs]

theorem total_le_total [PartialOrder M] [IsOrderedAddMonoid M] {xs : List α}
    (h : xs.IsChain fun x y => f x y ≤ g x y) : total f xs ≤ total g xs := by
  induction xs with
  | nil => rfl
  | cons x xs ih =>
    cases xs with
    | nil => rfl
    | cons y xs =>
      obtain ⟨hxy, hxs⟩ := List.isChain_cons_cons.1 h
      exact add_le_add hxy (ih hxs)

end Monoid

/-- Differences add up. -/
theorem total_sub [AddCommGroup M] (f : α → M) (x : α) (xs : List α) :
    total (fun x y => f y - f x) (x :: xs) =
      f ((x :: xs).getLast (List.cons_ne_nil x xs)) - f x := by
  induction xs generalizing x with
  | nil => simp
  | cons y xs ih =>
    rw [total_cons_cons, ih y, List.getLast_cons (List.cons_ne_nil y xs)]
    abel

end Series
