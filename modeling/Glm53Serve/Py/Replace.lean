import Glm53Serve.Lib.Edits
import Glm53Serve.Py.Find

/-!
# `str.count` and `str.replace`

`count` counts from the left without overlaps, `replace(old, new, 1)` replaces the first
occurrence. A triple-quoted text is kept as its lines; `Spelled` hands the letters of such a text
to the kernel, which is slow at unfolding a string by itself.

## What is proved

* `count_eq_occ` — a text that does not overlap itself is counted like all its occurrences.
* `replaceOnce_eq_some` — replacing a text that has to occur once.
* `check_of_spelled` — a check of texts, on their letters.
-/

namespace Py

open Occurrences

/-! ### Counting and replacing -/

/-- `t.count(x)` of a text that is not empty, `k` letters being taken already. -/
def countFrom (x : Text) : ℕ → Text → ℕ
  | _, [] => 0
  | k + 1, _ :: t => countFrom x k t
  | 0, c :: t => if x.isPrefixOf (c :: t) then countFrom x (x.length - 1) t + 1 else countFrom x 0 t

/-- `t.count(x)` of a text that is not empty. -/
def count (t x : Text) : ℕ := countFrom x 0 t

/-- `x in t` of a text that is not empty. -/
def isIn (x t : Text) : Bool := 0 < occ x t

/-- `replace_once`: `t.replace(old, new, 1)` where `t.count(old) == 1`, else `SystemExit`. -/
def replaceOnce (t old new : Text) : Option Text :=
  if count t old = 1 then some (replaceFirst old new t) else none

theorem isIn_iff_occ {x t : Text} : isIn x t = true ↔ occ x t ≠ 0 := by
  rw [isIn, decide_eq_true_eq, Nat.pos_iff_ne_zero]

theorem isIn_eq_false_iff {x t : Text} : isIn x t = false ↔ occ x t = 0 := by
  rw [isIn, decide_eq_false_iff_not, Nat.not_lt, Nat.le_zero]

theorem infix_of_isIn {x t : Text} (h : isIn x t = true) : x <:+: t := by
  rcases eq_or_ne x [] with rfl | hx
  · exact List.nil_infix
  · exact (occ_pos_iff hx).mp (of_decide_eq_true h)

theorem isIn_iff {x t : Text} (hx : x ≠ []) : isIn x t = true ↔ x <:+: t := by
  rw [isIn, decide_eq_true_eq, occ_pos_iff hx]

theorem countFrom_le_occ (x t : Text) (k : ℕ) : countFrom x k t ≤ occ x t := by
  induction t generalizing k with
  | nil => cases k <;> exact Nat.zero_le _
  | cons c t ih =>
    rw [occ_cons]
    cases k with
    | zero =>
      rw [countFrom]
      split_ifs
      · rw [Nat.add_comm]
        exact Nat.add_le_add_left (ih _) 1
      · rw [Nat.zero_add]
        exact ih 0
    | succ k => exact (ih k).trans (Nat.le_add_left _ _)

theorem count_le_occ (t x : Text) : count t x ≤ occ x t := countFrom_le_occ x t 0

theorem count_eq_zero_iff {t x : Text} : count t x = 0 ↔ occ x t = 0 := by
  refine ⟨fun h => ?_, fun h => Nat.le_zero.mp (h ▸ count_le_occ t x)⟩
  rw [count] at h
  induction t with
  | nil => rfl
  | cons c t ih =>
    rw [countFrom] at h
    rw [occ_cons]
    split_ifs at h ⊢
    rw [ih h]

theorem occ_pos_of_count {t x : Text} {n : ℕ} (h : count t x = n + 1) : occ x t ≠ 0 := by
  rw [Ne, ← count_eq_zero_iff, h]
  exact Nat.succ_ne_zero n

/-- A text that occurs once is counted once. -/
theorem count_of_occ_one {t x : Text} (h : occ x t = 1) : count t x = 1 := by
  have hle := count_le_occ t x
  have hne : count t x ≠ 0 := by
    rw [Ne, count_eq_zero_iff]
    omega
  omega

/-- No end of the text is its beginning. -/
def borderless (x : Text) : Bool := freeLeft [] x x.tail

theorem countFrom_eq_occ {x : Text} (hx : borderless x = true) (t : Text) (k : ℕ)
    (h : ∀ j < k, ¬x <+: t.drop j) : countFrom x k t = occ x t := by
  induction t generalizing k with
  | nil => cases k <;> rfl
  | cons c t ih =>
    cases k with
    | zero =>
      rw [countFrom, occ_cons]
      split_ifs with hp
      · rw [ih, Nat.add_comm]
        -- an occurrence inside the one that was found would be a border of it
        intro j hj hx'
        rw [List.isPrefixOf_iff_prefix] at hp
        have hdrop : x.drop (j + 1) <+: t.drop j := by
          obtain ⟨r, hr⟩ := hp
          refine ⟨r, ?_⟩
          have := congrArg (List.drop (j + 1)) hr
          rwa [List.drop_append_of_le_length (by omega), List.drop_succ_cons] at this
        have hsuf : x.drop (j + 1) <:+ x.tail := by
          rw [← List.drop_one, Nat.add_comm, ← List.drop_drop]
          exact List.drop_suffix _ _
        have := freeLeft_spec hx hsuf (agree_of_isPrefix hdrop hx')
        rw [List.length_drop, List.length_nil] at this
        omega
      · rw [Nat.zero_add]
        exact ih 0 (by simp)
    | succ k =>
      have hhead := h 0 (Nat.succ_pos k)
      rw [List.drop_zero, ← List.isPrefixOf_iff_prefix] at hhead
      rw [countFrom, occ_cons, if_neg hhead, Nat.zero_add]
      exact ih k fun j hj => h (j + 1) (Nat.succ_lt_succ hj)

/-- A text that does not overlap itself is counted like all its occurrences. -/
theorem count_eq_occ {x : Text} (hx : borderless x = true) (t : Text) : count t x = occ x t :=
  countFrom_eq_occ hx t 0 (by simp)

theorem replaceOnce_eq_some {t old new t' : Text} :
    replaceOnce t old new = some t' ↔ count t old = 1 ∧ replaceFirst old new t = t' := by
  rw [replaceOnce]
  split_ifs with h
  · simp [h]
  · simp [h]

/-- `t.split(x, 1)[0]`. -/
def splitHead (x t : Text) : Text :=
  match splitFirst x t with
  | some (u, _) => u
  | none => t

theorem splitHead_within (x t : Text) : splitHead x t <:+: t := by
  rw [splitHead]
  cases h : splitFirst x t with
  | none => exact List.infix_rfl
  | some uv =>
    obtain ⟨u, v⟩ := uv
    rw [splitFirst_eq_some h, List.append_assoc]
    exact (List.prefix_append u _).isInfix

/-- A text that occurs once is found there. -/
theorem find_of_once {x u v : Text} (hx : x ≠ []) (h : occ x (u ++ x ++ v) = 1) :
    find (u ++ x ++ v) x 0 = some u.length := by
  rw [find, List.find?_range_eq_some]
  simp only [decide_eq_true_eq, List.mem_range, Nat.zero_le, true_and]
  refine ⟨⟨?_, ?_⟩, ?_, fun j hj => ?_⟩
  · simp only [List.length_append]
    omega
  · rw [List.append_assoc, List.drop_left]
    exact List.prefix_append x v
  · simp only [List.length_append]
    omega
  · rw [Bool.not_eq_true', decide_eq_false_iff_not]
    rintro ⟨hle, w, hw⟩
    have heq : u ++ x ++ v = (u ++ x ++ v).take j ++ x ++ w := by
      rw [List.append_assoc _ x w, hw, List.take_append_drop]
    obtain ⟨hu, -⟩ := append_inj_of_once hx h heq
    have hlen := congrArg List.length hu
    rw [List.length_take] at hlen
    omega

theorem old_between (old new : Text) : (Edit.between old new).old = old :=
  (Edit.between_spec old new).1

theorem new_between (old new : Text) : (Edit.between old new).new = new :=
  (Edit.between_spec old new).2

theorem apply_between (old new t : Text) :
    (Edit.between old new).apply t = replaceFirst old new t := by
  rw [Edit.apply, old_between, new_between]

/-- The edit that replaces `old` by `new` patches a text in which `old` occurs. -/
theorem patches_between {t old : Text} (h : occ old t ≠ 0) (new : Text) :
    Edit.Patches [Edit.between old new] t (replaceFirst old new t) := by
  refine ⟨⟨by rwa [old_between], trivial⟩, ?_⟩
  rw [Edit.applyAll, List.foldl_cons, List.foldl_nil, apply_between]

/-- A text that occurs once is replaced. -/
theorem replaceOnce_of_once {t old : Text} (h : occ old t = 1) (new : Text) :
    replaceOnce t old new = some ((Edit.between old new).apply t) := by
  rw [replaceOnce, if_pos (count_of_occ_one h), apply_between]

theorem patches_of_replaceOnce {t old new t' : Text} (h : replaceOnce t old new = some t') :
    Edit.Patches [Edit.between old new] t t' := by
  obtain ⟨hcount, rfl⟩ := replaceOnce_eq_some.mp h
  exact patches_between (occ_pos_of_count hcount) new

/-- Where `old` does not overlap itself, it occurs once. -/
theorem patchesOnce_of_replaceOnce {t old new t' : Text} (hold : borderless old = true)
    (h : replaceOnce t old new = some t') :
    Edit.PatchesOnce [Edit.between old new] t t' := by
  have hpatch := (patches_of_replaceOnce h).2
  obtain ⟨hcount, -⟩ := replaceOnce_eq_some.mp h
  exact ⟨⟨by rw [old_between, ← count_eq_occ hold, hcount], trivial⟩, hpatch⟩

/-- A text that no edit destroys or puts is looked for with the same result. -/
theorem isIn_of_patches {es : List (Edit Char)} {x t t' : Text} (h : Edit.Patches es t t')
    (ha : es.all (Edit.adds x 0) = true) : isIn x t' = isIn x t := by
  obtain ⟨hfinds, rfl⟩ := h
  rw [isIn, isIn, Edit.occ_applyAll_of_adds hfinds ha]

/-- A replacement that is left out under a condition. -/
theorem patches_of_optional {c : Bool} {t old new t' : Text}
    (h : (if c then some t else replaceOnce t old new) = some t') :
    Edit.Patches (if c then [] else [Edit.between old new]) t t' := by
  cases c with
  | true =>
    rw [if_pos rfl] at h
    cases h
    exact Edit.Patches.nil t
  | false => exact patches_of_replaceOnce h

theorem patchesOnce_of_optional {c : Bool} {t old new t' : Text} (hold : borderless old = true)
    (h : (if c then some t else replaceOnce t old new) = some t') :
    Edit.PatchesOnce (if c then [] else [Edit.between old new]) t t' := by
  cases c with
  | true =>
    rw [if_pos rfl] at h
    cases h
    exact Edit.PatchesOnce.nil t
  | false => exact patchesOnce_of_replaceOnce hold h

/-! ### Texts by lines -/

/-- `"\n".join(lines)`. -/
def joinChars : List Text → Text
  | [] => []
  | [l] => l
  | l :: ls => l ++ '\n' :: joinChars ls

/-- A text given by its lines. -/
def joinLines (ls : List String) : Text := joinChars (ls.map String.toList)

theorem joinChars_begins (ls ms : List Text) : joinChars ls <+: joinChars (ls ++ ms) := by
  induction ls with
  | nil => exact List.nil_prefix
  | cons l ls ih =>
    cases ls with
    | nil =>
      cases ms with
      | nil => exact List.prefix_rfl
      | cons m ms => exact List.prefix_append l _
    | cons k ls =>
      have hl : joinChars (l :: k :: ls) = l ++ '\n' :: joinChars (k :: ls) := rfl
      have hlm : joinChars (l :: k :: ls ++ ms) = l ++ '\n' :: joinChars (k :: ls ++ ms) := rfl
      rw [hl, hlm]
      exact (List.prefix_append_right_inj l).mpr (List.cons_prefix_cons.mpr ⟨rfl, ih⟩)

/-- The first lines of a text. -/
theorem joinLines_begins (ls ms : List String) : joinLines ls <+: joinLines (ls ++ ms) := by
  rw [joinLines, joinLines, List.map_append]
  exact joinChars_begins _ _

/-- The letters of some lines. -/
def Spelled (ls : List String) (cs : List Text) : Prop := ls.map String.toList = cs

theorem Spelled.nil : Spelled [] [] := rfl

theorem Spelled.cons {l : Text} {ls : List String} {cs : List Text} (h : Spelled ls cs) :
    Spelled (String.ofList l :: ls) (l :: cs) := by
  rw [Spelled, List.map_cons, String.toList_ofList, h]

/-- The letters of some texts. -/
def SpelledAll (tss : List (List String)) (css : List (List Text)) : Prop :=
  List.Forall₂ Spelled tss css

theorem SpelledAll.nil : SpelledAll [] [] := List.Forall₂.nil

theorem SpelledAll.cons {ls : List String} {cs : List Text} {tss : List (List String)}
    {css : List (List Text)} (h : Spelled ls cs) (hs : SpelledAll tss css) :
    SpelledAll (ls :: tss) (cs :: css) :=
  List.Forall₂.cons h hs

theorem SpelledAll.map_joinLines {tss : List (List String)} {css : List (List Text)}
    (h : SpelledAll tss css) : tss.map joinLines = css.map joinChars := by
  induction h with
  | nil => rfl
  | cons h _ ih => rw [List.map_cons, List.map_cons, joinLines, h, ih]

/-- `joinChars`, with the recursors. -/
def letters (ls : List Text) : Text :=
  ls.rec [] fun l ls t => ls.rec l fun _ _ _ => joined l ('\n' :: t)

theorem letters_eq (ls : List Text) : letters ls = joinChars ls := by
  induction ls with
  | nil => rfl
  | cons l ls ih =>
    cases ls with
    | nil => rfl
    | cons m ms =>
      have h : letters (l :: m :: ms) = joined l ('\n' :: letters (m :: ms)) := rfl
      rw [h, ih, joined_eq]
      rfl

/-- A check of texts, on their letters. -/
theorem check_of_spelled (f : List Text → Bool) {tss : List (List String)} {css : List (List Text)}
    (h : SpelledAll tss css) (hf : f (css.map letters) = true) : f (tss.map joinLines) = true := by
  rw [h.map_joinLines]
  rwa [List.map_congr_left fun ls _ => letters_eq ls] at hf

end Py
