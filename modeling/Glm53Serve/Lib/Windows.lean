import Glm53Serve.Lib.Edits

/-!
# Texts that differ at the places of edits

Two texts that are the same but at places where the one has the old text of an edit and the other
its new text. Edits that are made one after another leave such texts, if none overlaps the text of
another and none puts it.

## What is proved

* `Windows.append`, `Windows.split` — windows side by side, and the gap in which a text stands.
* `findsOnce_of_sidesteps`, `FindsOnce.once` — such edits find their texts in turn exactly if each
  occurs once.
* `PatchesOnce.windows` — each edit of a list has replaced its text in the text of the beginning.
-/

namespace Occurrences

variable {α : Type*} [DecidableEq α]

namespace Edit

omit [DecidableEq α] in
/-- The texts are the same but at one place for each edit, from left to right. -/
inductive Windows : List (Edit α) → List α → List α → Prop where
  /-- No edit is left. -/
  | done (u : List α) : Windows [] u u
  /-- The next place, behind what is the same. -/
  | window {es : List (Edit α)} {t t' : List α} (u : List α) (e : Edit α) :
      Windows es t t' → Windows (e :: es) (u ++ e.old ++ t) (u ++ e.new ++ t')

omit [DecidableEq α] in
theorem Windows.prepend {es : List (Edit α)} {t t' : List α} (h : Windows es t t') (u : List α) :
    Windows es (u ++ t) (u ++ t') := by
  cases h with
  | done => exact .done (u ++ t)
  | window v e h =>
    simp only [← List.append_assoc]
    exact .window (u ++ v) e h

omit [DecidableEq α] in
theorem Windows.append {es gs : List (Edit α)} {t t' v v' : List α} (h : Windows es t t')
    (h' : Windows gs v v') : Windows (es ++ gs) (t ++ v) (t' ++ v') := by
  induction h with
  | done u => exact h'.prepend u
  | window u e _ ih =>
    rw [List.append_assoc (u ++ e.old), List.append_assoc (u ++ e.new), List.cons_append]
    exact .window u e ih

/-- A text that overlaps no window stands in a gap. -/
theorem Windows.split {es : List (Edit α)} {t t' x : List α} (h : Windows es t t') (hx : x ≠ [])
    (hapart : ∀ e ∈ es, apart x e.old = true) (hocc : occ x t ≠ 0) :
    ∃ es₁ es₂ a a' b b', es = es₁ ++ es₂ ∧ t = a ++ x ++ b ∧ t' = a' ++ x ++ b' ∧
      Windows es₁ a a' ∧ Windows es₂ b b' := by
  induction h with
  | done u =>
    obtain ⟨a, b, rfl⟩ := (occ_pos_iff hx).mp (Nat.pos_of_ne_zero hocc)
    exact ⟨[], [], a, a, b, b, rfl, rfl, rfl, .done a, .done b⟩
  | @window es t t' u e h ih =>
    rw [occ_of_apart (hapart e List.mem_cons_self)] at hocc
    rcases Nat.eq_zero_or_pos (occ x u) with hu | hu
    · -- behind the first window
      obtain ⟨es₁, es₂, a, a', b, b', rfl, rfl, rfl, h₁, h₂⟩ :=
        ih (fun e he => hapart e (List.mem_cons_of_mem _ he)) (by omega)
      refine ⟨e :: es₁, es₂, u ++ e.old ++ a, u ++ e.new ++ a', b, b', rfl, ?_, ?_,
        .window u e h₁, h₂⟩
      · simp only [List.append_assoc]
      · simp only [List.append_assoc]
    · -- before it
      obtain ⟨a, b, rfl⟩ := (occ_pos_iff hx).mp hu
      refine ⟨[], e :: es, a, a, b ++ e.old ++ t, b ++ e.new ++ t', rfl, ?_, ?_, .done a,
        .window b e h⟩
      · simp only [List.append_assoc]
      · simp only [List.append_assoc]

/-- One more edit, of a text that overlaps no window and that the windows do not put. -/
theorem Windows.apply {es : List (Edit α)} {t t' : List α} (h : Windows es t t') {g : Edit α}
    (hne : g.old ≠ []) (hapart : ∀ e ∈ es, apart g.old e.old = true) (hocc : occ g.old t ≠ 0)
    (hone : occ g.old t' = 1) : ∃ gs, gs.Perm (g :: es) ∧ Windows gs t (g.apply t') := by
  obtain ⟨es₁, es₂, a, a', b, b', rfl, rfl, rfl, h₁, h₂⟩ := h.split hne hapart hocc
  refine ⟨es₁ ++ g :: es₂, List.perm_middle, ?_⟩
  rw [apply_of_once hne hone, List.append_assoc, List.append_assoc]
  have hwindow := h₁.append (.window [] g h₂)
  simpa only [List.nil_append, List.append_assoc] using hwindow

/-- None of the edits puts or overlaps the text of one behind it. -/
def sidesteps : List (Edit α) → Bool
  | [] => true
  | e :: es => es.all (fun g => e.adds g.old 0 && apart g.old e.old) && sidesteps es

theorem sidesteps_cons {e : Edit α} {es : List (Edit α)} : sidesteps (e :: es) = true ↔
    (∀ g ∈ es, e.adds g.old 0 = true ∧ apart g.old e.old = true) ∧ sidesteps es = true := by
  rw [sidesteps, Bool.and_eq_true, List.all_eq_true]
  simp only [Bool.and_eq_true]

theorem pairwise_of_sidesteps {es : List (Edit α)} (h : sidesteps es = true) :
    es.Pairwise fun e g => e.adds g.old 0 = true ∧ apart g.old e.old = true := by
  induction es with
  | nil => exact List.Pairwise.nil
  | cons e es ih =>
    obtain ⟨hfirst, hrest⟩ := sidesteps_cons.mp h
    exact List.pairwise_cons.mpr ⟨hfirst, ih hrest⟩

/-- Where every text occurs once, the edits find them once in turn. -/
theorem findsOnce_of_sidesteps {es : List (Edit α)} {t : List α} (hes : sidesteps es = true)
    (hone : ∀ e ∈ es, occ e.old t = 1) : FindsOnce es t := by
  have hleaves : es.Pairwise fun e g => Leaves (fun _ => True) e g.old :=
    (pairwise_of_sidesteps hes).imp fun h => Leaves.of_adds h.1
  have hstays : ∀ e ∈ es, Stays (fun _ => True) e := fun _ _ _ _ _ => trivial
  exact findsOnce_of_leaves hleaves hstays trivial hone

/-- What such edits find once in turn occurs once. -/
theorem FindsOnce.once {es : List (Edit α)} {t : List α} (h : FindsOnce es t)
    (hes : sidesteps es = true) : ∀ e ∈ es, occ e.old t = 1 := by
  induction es generalizing t with
  | nil => exact fun e he => absurd he List.not_mem_nil
  | cons e es ih =>
    obtain ⟨hfind, hfinds⟩ := h
    obtain ⟨hfirst, hrest⟩ := sidesteps_cons.mp hes
    intro g hg
    rcases List.mem_cons.mp hg with rfl | hg
    · exact hfind
    · rw [← ih hfinds hrest g hg, occ_apply (by rw [hfind]; exact Nat.one_ne_zero) (hfirst g hg).1,
        Nat.add_zero]

theorem PatchesOnce.windows_from {es gs : List (Edit α)} {s t t' : List α} (hs : Windows es s t)
    (h : PatchesOnce gs t t') (hne : ∀ g ∈ gs, g.old ≠ []) (hg : sidesteps gs = true)
    (hapart : ∀ g ∈ gs, ∀ e ∈ es, apart g.old e.old = true)
    (hocc : ∀ g ∈ gs, occ g.old s = occ g.old t) :
    ∃ gs', gs'.Perm (gs ++ es) ∧ Windows gs' s t' := by
  induction gs generalizing es t with
  | nil =>
    obtain ⟨-, rfl⟩ := h
    exact ⟨es, List.Perm.refl es, hs⟩
  | cons g gs ih =>
    obtain ⟨⟨hfind, hfinds⟩, rfl⟩ := h
    obtain ⟨hfirst, hrest⟩ := sidesteps_cons.mp hg
    have hsource : occ g.old s ≠ 0 := by
      rw [hocc g List.mem_cons_self, hfind]
      exact Nat.one_ne_zero
    obtain ⟨es', hperm, hwindows⟩ :=
      hs.apply (hne g List.mem_cons_self) (hapart g List.mem_cons_self)
      hsource hfind
    obtain ⟨gs', hperm', hwindows'⟩ := ih hwindows ⟨hfinds, rfl⟩
      (fun k hk => hne k (List.mem_cons_of_mem _ hk)) hrest
      (fun k hk e he => by
        rcases List.mem_cons.mp (hperm.subset he) with rfl | he
        · exact (hfirst k hk).2
        · exact hapart k (List.mem_cons_of_mem _ hk) e he)
      (fun k hk => by
        rw [hocc k (List.mem_cons_of_mem _ hk),
          occ_apply (by rw [hfind]; exact Nat.one_ne_zero) (hfirst k hk).1, Nat.add_zero])
    refine ⟨gs', hperm'.trans ?_, hwindows'⟩
    exact ((List.Perm.refl gs).append hperm).trans (List.perm_middle)

/-- Edits that find their texts once, one after another, have replaced each of them in the text of
the beginning. -/
theorem PatchesOnce.windows {es : List (Edit α)} {t t' : List α} (h : PatchesOnce es t t')
    (hne : ∀ e ∈ es, e.old ≠ []) (hes : sidesteps es = true) :
    ∃ gs, gs.Perm es ∧ Windows gs t t' := by
  obtain ⟨gs, hperm, hwindows⟩ := PatchesOnce.windows_from (.done t) h hne hes
    (fun _ _ e he => absurd he List.not_mem_nil) (fun _ _ => rfl)
  exact ⟨gs, by simpa using hperm, hwindows⟩

end Edit

end Occurrences
