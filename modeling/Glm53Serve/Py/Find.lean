import Glm53Serve.Py.Text

/-!
# `str.find`

The first place at or after an offset where a text occurs in another.

## What is proved

* `isSome_find_iff` — there is such a place exactly if the text occurs at one.
-/

namespace Py

/-- `sub` occurs in `t` at the offset `i`. -/
def OccursAt (sub t : Text) (i : ℕ) : Prop := i ≤ t.length ∧ sub <+: t.drop i

instance (sub t : Text) (i : ℕ) : Decidable (OccursAt sub t i) := by
  unfold OccursAt
  infer_instance

/-- `t.find(sub, start)`; `none` is -1. -/
def find (t sub : Text) (start : ℕ) : Option ℕ :=
  (List.range (t.length + 1)).find? fun i => start ≤ i ∧ OccursAt sub t i

theorem isSome_find_iff {t sub : Text} {start : ℕ} :
    (find t sub start).isSome = true ↔ ∃ i, start ≤ i ∧ OccursAt sub t i := by
  simp only [find, List.find?_isSome, List.mem_range, decide_eq_true_eq]
  exact ⟨fun ⟨i, _, h⟩ => ⟨i, h⟩, fun ⟨i, h⟩ => ⟨i, Nat.lt_succ_of_le h.2.1, h⟩⟩

theorem isInfix_iff_occursAt {sub t : Text} : sub <:+: t ↔ ∃ i, OccursAt sub t i := by
  constructor
  · rintro ⟨as, bs, rfl⟩
    refine ⟨as.length, by simp, ?_⟩
    rw [List.append_assoc, List.drop_left]
    exact List.prefix_append _ _
  · rintro ⟨i, -, h⟩
    exact h.isInfix.trans (List.drop_suffix i t).isInfix

/-- What occurs in a text and ends before what has been added was there before. -/
theorem OccursAt.of_append {sub t u : Text} {i : ℕ} (h : OccursAt sub (t ++ u) i)
    (hend : i + sub.length ≤ t.length) : OccursAt sub t i := by
  refine ⟨by omega, ?_⟩
  have hp := h.2
  rw [List.drop_append_of_le_length (by omega)] at hp
  exact List.prefix_of_prefix_length_le hp (List.prefix_append _ _)
    (by rw [List.length_drop]; omega)

end Py
