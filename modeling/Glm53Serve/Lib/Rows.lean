import Mathlib

/-!
# Rows laid side by side

Rows of any lengths, read column by column.

## What is proved

* `flatMap_column_perm` — the columns hold what the rows hold.
* `length_filter_of_perm` — of lists without repetitions, one holds each element.
-/

universe u

namespace Rows

variable {α : Type u}

/-- The column of the rows at an index: of each row that reaches so far, its element. -/
def column (rows : List (List α)) (i : ℕ) : List α := rows.filterMap (·[i]?)

theorem column_cons (row : List α) (rows : List (List α)) (i : ℕ) :
    column (row :: rows) i = row[i]?.toList ++ column rows i := by
  unfold column
  rw [List.filterMap_cons]
  rcases row[i]? <;> rfl

theorem flatMap_getElem?_toList (row : List α) : ∀ n : ℕ, row.length ≤ n →
    (List.range n).flatMap (fun i => row[i]?.toList) = row := by
  induction row with
  | nil => exact fun n _ => by simp
  | cons a row ih =>
    intro n hn
    obtain ⟨n, rfl⟩ : ∃ k, n = k + 1 := Nat.exists_eq_succ_of_ne_zero (by simp at hn; omega)
    rw [List.range_succ_eq_map, List.flatMap_cons, List.flatMap_map]
    simpa using ih n (by simpa using hn)

/-- **The columns hold what the rows hold**, if there are as many as the longest row needs. -/
theorem flatMap_column_perm {rows : List (List α)} {n : ℕ} (h : ∀ row ∈ rows, row.length ≤ n) :
    ((List.range n).flatMap (column rows)).Perm rows.flatten := by
  induction rows with
  | nil => simp [column]
  | cons row rows ih =>
    simp only [funext (column_cons row rows), List.flatten_cons]
    refine (List.flatMap_append_perm _ _ _).symm.trans ?_
    rw [flatMap_getElem?_toList row n (h row (.head _))]
    exact (ih fun r hr => h r (.tail _ hr)).append_left row

/-- Of lists that hold an element once between them, one holds it. -/
theorem length_filter_mem [DecidableEq α] {lists : List (List α)} {a : α} (h : lists.flatten.Nodup)
    (ha : a ∈ lists.flatten) : (lists.filter fun l => a ∈ l).length = 1 := by
  induction lists with
  | nil => simp at ha
  | cons l lists ih =>
    rw [List.flatten_cons, List.nodup_append'] at h
    obtain ⟨-, hnodup, hdisjoint⟩ := h
    by_cases hl : a ∈ l
    · have hnone : lists.filter (fun l => a ∈ l) = [] := by
        rw [List.filter_eq_nil_iff]
        intro l' hl' hmem
        exact hdisjoint hl (List.mem_flatten.mpr ⟨l', hl', by simpa using hmem⟩)
      simp [hl, hnone]
    · rw [List.flatten_cons, List.mem_append] at ha
      rw [List.filter_cons_of_neg (by simpa using hl)]
      exact ih hnodup (ha.resolve_left hl)

end Rows
