import Glm53Serve.Lib.Turned

/-!
# Texts that end with a letter of their own

A line ends with a letter that it has nowhere else. Its occurrences cannot overlap each other, and
each lies between two such letters, so they are counted piece by piece.

## What is proved

* `occ_ended_split` — the occurrences of a line in a text, at a cut behind a line.
* `eq_of_suffix` — what stands behind the last such letter.
-/

namespace Occurrences

variable {α : Type*} [DecidableEq α] {y w : List α} {c : α}

omit [DecidableEq α] in
theorem not_suffix_concat {d : α} (hd : d ≠ c) (u : List α) : ¬y ++ [c] <:+ u ++ [d] := by
  rintro ⟨w, hw⟩
  rw [← List.append_assoc] at hw
  obtain ⟨-, h⟩ := List.append_inj' hw rfl
  exact hd (List.cons.inj h).1.symm

/-- Behind the last end of a line there is no occurrence. -/
theorem occ_ended_append (hw : c ∉ w) (u : List α) :
    occ (y ++ [c]) (u ++ w) = occ (y ++ [c]) u := by
  induction w using List.reverseRecOn with
  | nil => rw [List.append_nil]
  | append_singleton w d ih =>
    have hd : d ≠ c := fun h => hw (by simp [h])
    rw [← List.append_assoc, occ_concat (by simp), ih fun h => hw (List.mem_append_left _ h),
      if_neg (not_suffix_concat hd _), Nat.add_zero]

/-- The occurrences of a line: those up to the end of another, the one that ends there, and those
behind it. -/
theorem occ_ended_split (hy : c ∉ y) (u v : List α) :
    occ (y ++ [c]) (u ++ c :: v) = occ (y ++ [c]) u + (if y <:+ u then 1 else 0) +
      occ (y ++ [c]) v := by
  induction v using List.reverseRecOn with
  | nil =>
    have hcancel : y ++ [c] <:+ u ++ [c] ↔ y <:+ u := by
      constructor
      · rintro ⟨w, hw⟩
        rw [← List.append_assoc] at hw
        exact ⟨w, (List.append_inj' hw rfl).1⟩
      · rintro ⟨w, rfl⟩
        exact ⟨w, (List.append_assoc ..).symm⟩
    rw [occ_concat (by simp), occ_nil, Nat.add_zero]
    simp only [hcancel]
  | append_singleton v d ih =>
    have hbehind : y ++ [c] <:+ u ++ c :: (v ++ [d]) ↔ y ++ [c] <:+ v ++ [d] := by
      refine ⟨fun h => ?_, fun h => h.trans ((List.suffix_cons c _).trans (List.suffix_append u _))⟩
      have hv : c :: (v ++ [d]) <:+ u ++ c :: (v ++ [d]) := List.suffix_append u _
      rcases List.suffix_or_suffix_of_suffix h hv with h | ⟨s, hs⟩
      · refine (List.suffix_cons_iff.mp h).resolve_left fun heq => ?_
        rw [← List.cons_append] at heq
        exact hy ((List.append_inj' heq rfl).1 ▸ List.mem_cons_self)
      · -- the letter would stand in the line before its end
        rw [← List.cons_append, ← List.append_assoc] at hs
        exact absurd ((List.append_inj' hs rfl).1 ▸ List.mem_append_right _ List.mem_cons_self) hy
    rw [← List.cons_append, ← List.append_assoc, occ_concat (by simp), ih, occ_concat (by simp)]
    simp only [List.append_assoc, List.cons_append, hbehind]
    omega

/-- What stands behind the last `c`. -/
theorem eq_of_suffix {a b d d' : List α} (hd : c ∉ d) (hd' : c ∉ d')
    (h : a ++ c :: d' <:+ b ++ c :: d) : d' = d := by
  have hlast : ∀ (e t : List α), c ∉ e → (t ++ c :: e).reverse.takeWhile (· ≠ c) = e.reverse := by
    intro e t he
    rw [List.reverse_append, List.reverse_cons, List.append_assoc, List.takeWhile_append_of_pos]
    · simp
    · intro x hx
      simpa using fun h : x = c => he (by simpa [h] using hx)
  obtain ⟨w, hw⟩ := h
  have heq := congrArg (fun t : List α => t.reverse.takeWhile (· ≠ c)) hw
  simp only [← List.append_assoc] at heq
  rw [hlast d' (w ++ a) hd', hlast d b hd] at heq
  exact List.reverse_injective heq

end Occurrences
