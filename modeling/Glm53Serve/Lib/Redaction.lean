import Mathlib.Data.List.Infix
import Mathlib.Tactic.Cases

/-!
# Redaction

Words are replaced by a mark, one word after the other, each from the left without overlaps. The
mark has no letter of a word, so a word that is looked for later does not reach into a mark, and the
text is kept as pieces: letters that are shown and words that are hidden.

## What is proved

* `shown_hideAll` — the pieces show the redacted text.
* `not_infix_shown` — it has none of the words.
* `hideAll_append` — between two pieces, the text can be redacted in two parts.
* `suffix_of_shown` — where no word ends another, a redacted text that ends the redacted text ends
  it piece by piece.
-/

namespace Redaction

universe u

variable {α : Type u} [DecidableEq α]

/-! ### Replacing -/

/-- `replaceAll`, `k` letters being taken already. -/
def replaceFrom (old new : List α) : ℕ → List α → List α
  | _, [] => []
  | k + 1, _ :: t => replaceFrom old new k t
  | 0, c :: t =>
    if old.isPrefixOf (c :: t) then new ++ replaceFrom old new (old.length - 1) t
    else c :: replaceFrom old new 0 t

/-- The occurrences of a word that is not empty, from the left without overlaps, replaced. -/
def replaceAll (old new t : List α) : List α := replaceFrom old new 0 t

@[simp] theorem replaceAll_nil (old new : List α) : replaceAll old new [] = [] := rfl

theorem replaceFrom_append (old new u t : List α) :
    replaceFrom old new u.length (u ++ t) = replaceAll old new t := by
  induction u with
  | nil => rfl
  | cons c u ih => exact ih

/-- The word is found. -/
theorem replaceAll_found {old : List α} (new t : List α) (h : old ≠ []) :
    replaceAll old new (old ++ t) = new ++ replaceAll old new t := by
  obtain ⟨c, u, rfl⟩ := List.exists_cons_of_ne_nil h
  rw [replaceAll, List.cons_append, replaceFrom, if_pos, List.length_cons, Nat.add_sub_cancel,
    replaceFrom_append]
  rw [List.isPrefixOf_iff_prefix]
  exact List.prefix_append (c :: u) t

/-- The word is not at this letter. -/
theorem replaceAll_cons {old : List α} (new : List α) {c : α} {t : List α} (h : ¬old <+: c :: t) :
    replaceAll old new (c :: t) = c :: replaceAll old new t := by
  rw [replaceAll, replaceFrom, if_neg, replaceAll]
  rwa [List.isPrefixOf_iff_prefix]

/-- The cases of `replaceAll`: the end, a word that is found, a letter that stays. -/
theorem replaceAll_induction {old : List α} (h : old ≠ []) {P : List α → Prop} (nil : P [])
    (found : ∀ t, P t → P (old ++ t)) (letter : ∀ c t, ¬old <+: c :: t → P t → P (c :: t))
    (t : List α) : P t := by
  induction hn : t.length using Nat.strongRecOn generalizing t with
  | ind n ih =>
    subst hn
    cases t with
    | nil => exact nil
    | cons c t =>
      by_cases hp : old <+: c :: t
      · obtain ⟨r, hr⟩ := hp
        have hpos : 0 < old.length := List.length_pos_iff.mpr h
        rw [← hr]
        exact found r (ih r.length (by rw [← hr, List.length_append]; omega) r rfl)
      · exact letter c t hp (ih t.length (Nat.lt_succ_self _) t rfl)

/-- Letters that are in no occurrence are passed over. -/
theorem replaceAll_append {old : List α} (new : List α) {u : List α} (h : old ≠ [])
    (hu : ∀ c ∈ u, c ∉ old)
    (t : List α) : replaceAll old new (u ++ t) = u ++ replaceAll old new t := by
  induction u with
  | nil => rfl
  | cons c u ih =>
    rw [List.cons_append, replaceAll_cons, ih fun d hd =>
      hu d (List.mem_cons_of_mem c hd), List.cons_append]
    obtain ⟨d, ds, rfl⟩ := List.exists_cons_of_ne_nil h
    intro hp
    exact hu c List.mem_cons_self ((List.cons_prefix_cons.mp hp).1 ▸ List.mem_cons_self)

/-! ### Pieces -/

/-- A letter that is shown, or a word that is hidden. -/
inductive Piece (α : Type u) where
  | letter (c : α)
  | hidden (w : List α)
  deriving DecidableEq

/-- The text of the pieces. -/
def Piece.source : Piece α → List α
  | letter c => [c]
  | hidden w => w

/-- The pieces with `mark` for the hidden words. -/
def Piece.shown (mark : List α) : Piece α → List α
  | letter c => [c]
  | hidden _ => mark

def source (ps : List (Piece α)) : List α := ps.flatMap Piece.source

def shown (mark : List α) (ps : List (Piece α)) : List α := ps.flatMap (Piece.shown mark)

/-- The text with nothing hidden. -/
def plain (t : List α) : List (Piece α) := t.map Piece.letter

/-- One word hidden. -/
def hide (w : List α) (ps : List (Piece α)) : List (Piece α) := replaceAll (plain w) [.hidden w] ps

/-- The words hidden in turn. -/
def hideAll (ws : List (List α)) (ps : List (Piece α)) : List (Piece α) :=
  ws.foldl (fun ps w => hide w ps) ps

section

omit [DecidableEq α]

theorem source_append (ps qs : List (Piece α)) : source (ps ++ qs) = source ps ++ source qs :=
  List.flatMap_append

theorem shown_append (mark : List α) (ps qs : List (Piece α)) :
    shown mark (ps ++ qs) = shown mark ps ++ shown mark qs := List.flatMap_append

theorem source_cons (p : Piece α) (ps : List (Piece α)) :
    source (p :: ps) = p.source ++ source ps :=
  List.flatMap_cons

theorem shown_cons (mark : List α) (p : Piece α) (ps : List (Piece α)) :
    shown mark (p :: ps) = p.shown mark ++ shown mark ps := List.flatMap_cons

theorem source_singleton (p : Piece α) : source [p] = p.source := List.append_nil _

theorem shown_singleton (mark : List α) (p : Piece α) : shown mark [p] = p.shown mark :=
  List.append_nil _

theorem source_plain (t : List α) : source (plain t) = t := by
  induction t with
  | nil => rfl
  | cons c t ih => exact congrArg (c :: ·) ih

theorem shown_plain (mark t : List α) : shown mark (plain t) = t := by
  induction t with
  | nil => rfl
  | cons c t ih => exact congrArg (c :: ·) ih

theorem plain_ne_nil {w : List α} (h : w ≠ []) : plain w ≠ [] :=
  fun hw => h (List.map_eq_nil_iff.mp hw)

end

theorem hide_found {w : List α} (h : w ≠ []) (ps : List (Piece α)) :
    hide w (plain w ++ ps) = .hidden w :: hide w ps := replaceAll_found _ _ (plain_ne_nil h)

theorem hide_cons {w : List α} {p : Piece α} {ps : List (Piece α)} (hp : ¬plain w <+: p :: ps) :
    hide w (p :: ps) = p :: hide w ps := replaceAll_cons _ hp

theorem source_hide {w : List α} (h : w ≠ []) (ps : List (Piece α)) :
    source (hide w ps) = source ps := by
  induction ps using replaceAll_induction (plain_ne_nil h) with
  | nil => rfl
  | found ps ih =>
    rw [hide_found h, source_cons, ih, source_append, source_plain]
    rfl
  | letter p ps hp ih => rw [hide_cons hp, source_cons, source_cons, ih]

theorem source_hideAll {ws : List (List α)} (h : ∀ w ∈ ws, w ≠ []) (ps : List (Piece α)) :
    source (hideAll ws ps) = source ps := by
  induction ws generalizing ps with
  | nil => rfl
  | cons w ws ih =>
    exact (ih (fun v hv => h v (List.mem_cons_of_mem w hv)) (hide w ps)).trans
      (source_hide (h w List.mem_cons_self) ps)

/-- Only the words are hidden. -/
theorem mem_hide {w v : List α} (h : w ≠ []) {ps : List (Piece α)} (hv : .hidden v ∈ hide w ps) :
    v = w ∨ .hidden v ∈ ps := by
  induction ps using replaceAll_induction (plain_ne_nil h) with
  | nil => exact .inr hv
  | found ps ih =>
    rw [hide_found h] at hv
    rcases List.mem_cons.mp hv with heq | hv
    · exact .inl (Piece.hidden.inj heq)
    · exact (ih hv).imp_right (List.mem_append_right _)
  | letter p ps hp ih =>
    rw [hide_cons hp] at hv
    rcases List.mem_cons.mp hv with heq | hv
    · exact .inr (List.mem_cons.mpr (.inl heq))
    · exact (ih hv).imp_right (List.mem_cons_of_mem p)

theorem mem_hideAll {ws : List (List α)} (h : ∀ w ∈ ws, w ≠ []) {v : List α} {ps : List (Piece α)}
    (hv : .hidden v ∈ hideAll ws ps) : v ∈ ws ∨ .hidden v ∈ ps := by
  induction ws generalizing ps with
  | nil => exact .inr hv
  | cons w ws ih =>
    rcases ih (fun u hu => h u (List.mem_cons_of_mem w hu)) hv with hmem | hmem
    · exact .inl (List.mem_cons_of_mem w hmem)
    · rcases mem_hide (h w List.mem_cons_self) hmem with rfl | hmem
      · exact .inl List.mem_cons_self
      · exact .inr hmem

/-! ### What is shown -/

section

variable {mark : List α}

omit [DecidableEq α] in
/-- A word without a letter of the mark is shown by letters. -/
theorem plain_prefix_of_shown {w : List α} (hmark : mark ≠ []) (hw : ∀ c ∈ w, c ∉ mark)
    {ps : List (Piece α)}
    (h : w <+: shown mark ps) : plain w <+: ps := by
  induction w generalizing ps with
  | nil => exact List.nil_prefix
  | cons c w ih =>
    cases ps with
    | nil => exact absurd (List.prefix_nil.mp h) (List.cons_ne_nil c w)
    | cons p ps =>
      cases p with
      | letter d =>
        obtain ⟨rfl, ht⟩ := List.cons_prefix_cons.mp h
        exact List.cons_prefix_cons.mpr ⟨rfl, ih (fun e he => hw e (List.mem_cons_of_mem c he)) ht⟩
      | hidden v =>
        obtain ⟨m, ms, rfl⟩ := List.exists_cons_of_ne_nil hmark
        obtain ⟨rfl, -⟩ := List.cons_prefix_cons.mp h
        exact absurd List.mem_cons_self (hw c List.mem_cons_self)

omit [DecidableEq α] in
/-- A word passes over letters that it does not have. -/
theorem infix_of_infix_append {w u t : List α} (h : w ≠ []) (hw : ∀ c ∈ w, c ∉ u)
    (ht : w <:+: u ++ t) : w <:+: t := by
  induction u with
  | nil => exact ht
  | cons c u ih =>
    rcases List.infix_cons_iff.mp ht with hp | hi
    · obtain ⟨d, ds, rfl⟩ := List.exists_cons_of_ne_nil h
      obtain ⟨rfl, -⟩ := List.cons_prefix_cons.mp hp
      exact absurd List.mem_cons_self (hw d List.mem_cons_self)
    · exact ih (fun d hd hdu => hw d hd (List.mem_cons_of_mem c hdu)) hi

omit [DecidableEq α] in
theorem plain_infix_of_shown {w : List α} (hmark : mark ≠ []) (hne : w ≠ [])
    (hw : ∀ c ∈ w, c ∉ mark)
    {ps : List (Piece α)} (h : w <:+: shown mark ps) : plain w <:+: ps := by
  induction ps with
  | nil => exact absurd (List.infix_nil.mp h) hne
  | cons p ps ih =>
    cases p with
    | letter c =>
      rcases List.infix_cons_iff.mp h with hp | hi
      · have hpre : w <+: shown mark (.letter c :: ps) := hp
        exact (plain_prefix_of_shown hmark hw hpre).isInfix
      · exact List.infix_cons (ih hi)
    | hidden v => exact List.infix_cons (ih (infix_of_infix_append hne hw h))

/-- Hiding a word in the pieces is replacing it in what they show. -/
theorem shown_hide {w : List α} (hmark : mark ≠ []) (hne : w ≠ []) (hw : ∀ c ∈ w, c ∉ mark)
    (ps : List (Piece α)) :
    shown mark (hide w ps) = replaceAll w mark (shown mark ps) := by
  induction ps using replaceAll_induction (plain_ne_nil hne) with
  | nil => rfl
  | found ps ih =>
    rw [hide_found hne, shown_cons, ih, shown_append, shown_plain, replaceAll_found _ _ hne]
    rfl
  | letter p ps hp ih =>
    rw [hide_cons hp, shown_cons, ih]
    cases p with
    | letter c =>
      have hletter : ¬w <+: c :: shown mark ps := fun h => hp (plain_prefix_of_shown hmark hw h)
      exact (replaceAll_cons mark hletter).symm
    | hidden v =>
      have hfree : ∀ c ∈ mark, c ∉ w := fun c hc hcw => hw c hcw hc
      exact (replaceAll_append mark hne hfree _).symm

/-- The pieces show the redacted text. -/
theorem shown_hideAll {ws : List (List α)} (hmark : mark ≠ []) (hne : ∀ w ∈ ws, w ≠ [])
    (hw : ∀ w ∈ ws, ∀ c ∈ w, c ∉ mark) (ps : List (Piece α)) :
    shown mark (hideAll ws ps) = ws.foldl (fun t w => replaceAll w mark t) (shown mark ps) := by
  induction ws generalizing ps with
  | nil => rfl
  | cons w ws ih =>
    rw [List.foldl_cons, ← shown_hide hmark (hne w List.mem_cons_self) (hw w List.mem_cons_self)]
    exact ih (fun v hv => hne v (List.mem_cons_of_mem w hv))
      (fun v hv => hw v (List.mem_cons_of_mem w hv)) _

/-- Letters in front of the pieces were in front before a word was hidden. -/
theorem plain_prefix_of_hide {w v : List α} (h : w ≠ []) {ps : List (Piece α)}
    (hv : plain v <+: hide w ps) :
    plain v <+: ps := by
  induction ps using replaceAll_induction (plain_ne_nil h) generalizing v with
  | nil => exact hv
  | found ps ih =>
    rw [hide_found h] at hv
    cases v with
    | nil => exact List.nil_prefix
    | cons c v => exact absurd (List.cons_prefix_cons.mp hv).1 nofun
  | letter p ps hp ih =>
    rw [hide_cons hp] at hv
    cases v with
    | nil => exact List.nil_prefix
    | cons c v =>
      obtain ⟨rfl, hrest⟩ := List.cons_prefix_cons.mp hv
      exact List.cons_prefix_cons.mpr ⟨rfl, ih hrest⟩

/-- A word in the letters was there before a word was hidden. -/
theorem plain_infix_of_hide {w v : List α} (h : w ≠ []) {ps : List (Piece α)}
    (hv : plain v <:+: hide w ps) :
    plain v <:+: ps := by
  induction ps using replaceAll_induction (plain_ne_nil h) with
  | nil => exact hv
  | found ps ih =>
    rw [hide_found h] at hv
    rcases List.infix_cons_iff.mp hv with hp | hi
    · cases v with
      | nil => exact List.nil_infix
      | cons c v => exact absurd (List.cons_prefix_cons.mp hp).1 nofun
    · exact (ih hi).trans (List.suffix_append _ _).isInfix
  | letter p ps hp ih =>
    rw [hide_cons hp] at hv
    rcases List.infix_cons_iff.mp hv with hpre | hi
    · rw [← hide_cons hp] at hpre
      exact (plain_prefix_of_hide h hpre).isInfix
    · exact List.infix_cons (ih hi)

theorem plain_infix_of_hideAll {ws : List (List α)} (h : ∀ w ∈ ws, w ≠ []) {v : List α}
    {ps : List (Piece α)}
    (hv : plain v <:+: hideAll ws ps) : plain v <:+: ps := by
  induction ws generalizing ps with
  | nil => exact hv
  | cons w ws ih =>
    exact plain_infix_of_hide (h w List.mem_cons_self)
      (ih (fun u hu => h u (List.mem_cons_of_mem w hu)) hv)

/-- A word that is hidden is nowhere in the letters. -/
theorem not_plain_infix_hide {w : List α} (h : w ≠ []) (ps : List (Piece α)) :
    ¬plain w <:+: hide w ps := by
  induction ps using replaceAll_induction (plain_ne_nil h) with
  | nil => exact fun hi => plain_ne_nil h (List.infix_nil.mp hi)
  | found ps ih =>
    rw [hide_found h]
    intro hi
    rcases List.infix_cons_iff.mp hi with hp | hi
    · obtain ⟨c, v, rfl⟩ := List.exists_cons_of_ne_nil h
      exact absurd (List.cons_prefix_cons.mp hp).1 nofun
    · exact ih hi
  | letter p ps hp ih =>
    intro hi
    rw [hide_cons hp] at hi
    rcases List.infix_cons_iff.mp hi with hpre | hi
    · rw [← hide_cons hp] at hpre
      exact hp (plain_prefix_of_hide h hpre)
    · exact ih hi

/-- The redacted text has none of the words. -/
theorem not_infix_shown {ws : List (List α)} (hmark : mark ≠ []) (hne : ∀ w ∈ ws, w ≠ [])
    (hw : ∀ w ∈ ws, ∀ c ∈ w, c ∉ mark) (ps : List (Piece α)) {v : List α} (hv : v ∈ ws) :
    ¬v <:+: shown mark (hideAll ws ps) := by
  intro hi
  have hplain := plain_infix_of_shown hmark (hne v hv) (hw v hv) hi
  clear hi hw
  induction ws generalizing ps with
  | nil => exact absurd hv List.not_mem_nil
  | cons w ws ih =>
    have hws : ∀ u ∈ ws, u ≠ [] := fun u hu => hne u (List.mem_cons_of_mem w hu)
    rcases List.mem_cons.mp hv with rfl | hv
    · exact not_plain_infix_hide (hne v List.mem_cons_self) ps (plain_infix_of_hideAll hws hplain)
    · exact ih hws (hide w ps) hv hplain

end

/-! ### Parts -/

/-- The text of the pieces may be cut after `n` letters. -/
def Boundary (ps : List (Piece α)) (n : ℕ) : Prop := ∃ qs rs, ps = qs ++ rs ∧ (source qs).length = n

/-- The letter `n` lies inside of the hidden word at `m`. -/
def Inside (ps : List (Piece α)) (w : List α) (m n : ℕ) : Prop :=
  ∃ qs rs, ps = qs ++ .hidden w :: rs ∧ (source qs).length = m ∧ m < n ∧ n < m + w.length

section

omit [DecidableEq α]

theorem length_source_cons (p : Piece α) (ps : List (Piece α)) :
    (source (p :: ps)).length = p.source.length + (source ps).length := by
  rw [source_cons, List.length_append]

/-- A place in the text is between two pieces or inside of a hidden word. -/
theorem boundary_or_inside {ps : List (Piece α)} {n : ℕ} (hn : n ≤ (source ps).length) :
    Boundary ps n ∨ ∃ w m, Inside ps w m n := by
  induction ps generalizing n with
  | nil => exact .inl ⟨[], [], rfl, (Nat.le_zero.mp hn).symm⟩
  | cons p ps ih =>
    rcases Nat.eq_zero_or_pos n with rfl | hpos
    · exact .inl ⟨[], p :: ps, rfl, rfl⟩
    rw [length_source_cons] at hn
    rcases Nat.lt_or_ge n p.source.length with hlt | hge
    · cases p with
      | letter c =>
        have hone : n < 1 := hlt
        omega
      | hidden w => exact .inr ⟨w, 0, [], ps, rfl, rfl, hpos, by rwa [Nat.zero_add]⟩
    · rcases ih (n := n - p.source.length) (by omega) with ⟨qs, rs, rfl, hlen⟩
        | ⟨w, m, qs, rs, rfl, hlen, hlow, hhigh⟩
      · exact .inl ⟨p :: qs, rs, rfl, by rw [length_source_cons]; omega⟩
      · exact .inr ⟨w, p.source.length + m, p :: qs, rs,
          rfl, by rw [length_source_cons, hlen], by omega, by omega⟩

/-- It is not both. -/
theorem not_inside_of_boundary {ps : List (Piece α)} {w : List α} {m n : ℕ} (hb : Boundary ps n) :
    ¬Inside ps w m n := by
  rintro ⟨qs, rs, rfl, rfl, hlow, hhigh⟩
  obtain ⟨qs', rs', heq, rfl⟩ := hb
  rcases List.append_eq_append_iff.mp heq with ⟨us, rfl, hrs⟩ | ⟨us, rfl, hrs⟩
  · cases us with
    | nil => simp at hlow
    | cons p us =>
      obtain ⟨rfl, rfl⟩ := List.cons_eq_cons.mp hrs
      rw [source_append, List.length_append, length_source_cons] at hhigh
      have : (Piece.hidden w).source.length = w.length := rfl
      omega
  · rw [source_append, List.length_append] at hlow
    omega

end

/-- Hiding a word only takes boundaries away. -/
theorem boundary_of_hide {w : List α} (h : w ≠ []) {ps : List (Piece α)} {n : ℕ}
    (hb : Boundary (hide w ps) n) :
    Boundary ps n := by
  induction ps using replaceAll_induction (plain_ne_nil h) generalizing n with
  | nil => exact hb
  | found ps ih =>
    rw [hide_found h] at hb
    obtain ⟨_ | ⟨q, qs⟩, rs, heq, rfl⟩ := hb
    · exact ⟨[], plain w ++ ps, rfl, rfl⟩
    · obtain ⟨rfl, hrest⟩ := List.cons_eq_cons.mp heq
      obtain ⟨qs', rs', rfl, hlen⟩ := ih ⟨qs, rs, hrest, rfl⟩
      refine ⟨plain w ++ qs', rs', (List.append_assoc _ _ _).symm, ?_⟩
      rw [source_append, source_plain, List.length_append, hlen, length_source_cons]
      rfl
  | letter p ps hp ih =>
    rw [hide_cons hp] at hb
    obtain ⟨_ | ⟨q, qs⟩, rs, heq, rfl⟩ := hb
    · exact ⟨[], p :: ps, rfl, rfl⟩
    · obtain ⟨rfl, hrest⟩ := List.cons_eq_cons.mp heq
      obtain ⟨qs', rs', rfl, hlen⟩ := ih ⟨qs, rs, hrest, rfl⟩
      exact ⟨p :: qs', rs', rfl, by rw [length_source_cons, hlen, length_source_cons]⟩

theorem boundary_of_hideAll {ws : List (List α)} (h : ∀ w ∈ ws, w ≠ [])
    {ps : List (Piece α)} {n : ℕ}
    (hb : Boundary (hideAll ws ps) n) : Boundary ps n := by
  induction ws generalizing ps with
  | nil => exact hb
  | cons w ws ih => exact boundary_of_hide (h w List.mem_cons_self) (ih
      (fun u hu => h u (List.mem_cons_of_mem w hu)) hb)

omit [DecidableEq α] in
/-- A boundary behind a first piece is one of the other pieces. -/
theorem boundary_of_cons {p : Piece α} {ps : List (Piece α)} {n : ℕ}
    (hb : Boundary (p :: ps) (p.source.length + n)) :
    Boundary ps n := by
  obtain ⟨_ | ⟨q, qs⟩, rs, heq, hlen⟩ := hb
  · have hzero : n = 0 := by
      have : (source ([] : List (Piece α))).length = 0 := rfl
      omega
    exact ⟨[], ps, rfl, hzero.symm⟩
  · obtain ⟨rfl, rfl⟩ := List.cons_eq_cons.mp heq
    rw [length_source_cons] at hlen
    exact ⟨qs, rs, rfl, Nat.add_left_cancel hlen⟩

/-- At a boundary a word is hidden in two parts. -/
theorem hide_append {w : List α} (h : w ≠ []) {ps qs : List (Piece α)}
    (hb : Boundary (hide w (ps ++ qs)) (source ps).length) :
    hide w (ps ++ qs) = hide w ps ++ hide w qs := by
  induction ps using replaceAll_induction (plain_ne_nil h) with
  | nil => rfl
  | found ps ih =>
    rw [List.append_assoc, hide_found h] at hb ⊢
    rw [hide_found h, ih, List.cons_append]
    refine boundary_of_cons (p := .hidden w) ?_
    rwa [source_append, source_plain, List.length_append] at hb
  | letter p ps hp ih =>
    rw [List.cons_append] at hb ⊢
    have hnot : ¬plain w <+: p :: (ps ++ qs) := by
      rintro ⟨rest, hrest⟩
      -- the word would reach over the boundary
      have hlt : (p :: ps).length < w.length := by
        by_contra hle
        refine hp (List.prefix_of_prefix_length_le ⟨rest, hrest⟩
          (List.prefix_append (p :: ps) qs) ?_)
        rw [plain, List.length_map]
        omega
      have hletters : p :: ps <+: plain w :=
        List.prefix_of_prefix_length_le (List.prefix_append (p :: ps) qs) ⟨rest, hrest⟩
          (by rw [plain, List.length_map]; omega)
      have hsource : (source (p :: ps)).length = (p :: ps).length := by
        rw [List.prefix_iff_eq_take.mp hletters, plain, ← List.map_take, ← plain, source_plain,
          plain, List.length_map]
      rw [← hrest, hide_found h] at hb
      refine not_inside_of_boundary hb ⟨[], hide w rest, rfl, rfl, ?_, ?_⟩
      · rw [hsource]
        exact Nat.succ_pos _
      · rw [hsource]
        omega
    rw [hide_cons hnot] at hb ⊢
    rw [hide_cons hp, ih, List.cons_append]
    rw [length_source_cons] at hb
    exact boundary_of_cons hb

/-- Between two pieces, the text can be redacted in two parts. -/
theorem hideAll_append {ws : List (List α)} (h : ∀ w ∈ ws, w ≠ []) {ps qs : List (Piece α)}
    (hb : Boundary (hideAll ws (ps ++ qs)) (source ps).length) :
    hideAll ws (ps ++ qs) = hideAll ws ps ++ hideAll ws qs := by
  induction ws generalizing ps qs with
  | nil => rfl
  | cons w ws ih =>
    have hws : ∀ u ∈ ws, u ≠ [] := fun u hu => h u (List.mem_cons_of_mem w hu)
    have hw := h w List.mem_cons_self
    have hsplit := hide_append hw (boundary_of_hideAll hws hb)
    have hb' : Boundary (hideAll ws (hide w ps ++ hide w qs)) (source (hide w ps)).length := by
      rw [← hsplit, source_hide hw]
      exact hb
    exact (congrArg (hideAll ws) hsplit).trans (ih hws hb')

/-! ### Ends of a redacted text -/

section

omit [DecidableEq α]

variable {s t u : List α} {c : α}

/-- A letter at the end of a text is one of the word that ends it. -/
theorem mem_of_concat_suffix (hu : u ≠ []) (h : s ++ [c] <:+ t ++ u) : c ∈ u := by
  rw [← List.dropLast_append_getLast hu, ← List.append_assoc] at h
  obtain ⟨-, hc⟩ := (List.suffix_append_inj_of_length_eq (by rfl)).mp h
  rw [List.singleton_inj.mp hc]
  exact List.getLast_mem hu

theorem mem_of_suffix_concat (hu : u ≠ []) (h : s ++ u <:+ t ++ [c]) : c ∈ u := by
  rw [← List.dropLast_append_getLast hu, ← List.append_assoc] at h
  obtain ⟨-, hc⟩ := (List.suffix_append_inj_of_length_eq (by rfl)).mp h
  rw [← List.singleton_inj.mp hc]
  exact List.getLast_mem hu

/-- Where no word ends another, a redacted text that ends the redacted text ends it piece by piece.
-/
theorem suffix_of_shown {mark : List α} {W : List α → Prop} (hmark : mark ≠ [])
    (hne : ∀ w, W w → w ≠ [])
    (hw : ∀ w, W w → ∀ c ∈ w, c ∉ mark) (hends : ∀ v w, W v → W w → v <:+ w → v = w)
    {ps qs : List (Piece α)}
    (hps : ∀ w, .hidden w ∈ ps → W w) (hqs : ∀ w, .hidden w ∈ qs → W w)
    (hsource : source ps <:+ source qs)
    (hshown : shown mark ps <:+ shown mark qs) : ps <:+ qs := by
  induction ps using List.reverseRecOn generalizing qs with
  | nil => exact List.nil_suffix
  | append_singleton ps p ih =>
    have hps' : ∀ w, .hidden w ∈ ps → W w := fun w hmem => hps w (List.mem_append_left _ hmem)
    have hp : ∀ w, p = .hidden w → W w := fun w heq =>
      hps w (List.mem_append_right _ (heq ▸ List.mem_singleton_self _))
    rcases List.eq_nil_or_concat' qs with rfl | ⟨qs, q, rfl⟩
    · rw [source_append] at hsource
      have hnil := (List.append_eq_nil_iff.mp (List.suffix_nil.mp hsource)).2
      cases p with
      | letter c => exact absurd hnil (List.cons_ne_nil c [])
      | hidden v => exact absurd (by simpa [source, Piece.source] using hnil) (hne v (hp v rfl))
    have hqs' : ∀ w, .hidden w ∈ qs → W w := fun w hmem => hqs w (List.mem_append_left _ hmem)
    have hq : ∀ w, q = .hidden w → W w := fun w heq =>
      hqs w (List.mem_append_right _ (heq ▸ List.mem_singleton_self _))
    rw [source_append, source_append, source_singleton, source_singleton] at hsource
    rw [shown_append, shown_append, shown_singleton, shown_singleton] at hshown
    have hpq : p = q := by
      cases p with
      | letter c =>
        cases q with
        | letter d =>
          obtain ⟨-, hc⟩ := (List.suffix_append_inj_of_length_eq (by rfl)).mp hsource
          rw [List.singleton_inj.mp hc]
        | hidden w =>
          exact absurd (mem_of_concat_suffix hmark hshown)
            (hw w (hq w rfl) c (mem_of_concat_suffix (hne w (hq w rfl)) hsource))
      | hidden v =>
        cases q with
        | letter d =>
          exact absurd (mem_of_suffix_concat hmark hshown)
            (hw v (hp v rfl) d (mem_of_suffix_concat (hne v (hp v rfl)) hsource))
        | hidden w =>
          have hv : v <:+ source qs ++ w := (List.suffix_append _ _).trans hsource
          rcases List.suffix_or_suffix_of_suffix hv (List.suffix_append (source qs) w)
            with hvw | hwv
          · rw [hends v w (hp v rfl) (hq w rfl) hvw]
          · rw [hends w v (hq w rfl) (hp v rfl) hwv]
    subst hpq
    exact List.suffix_append_self_iff.mpr (ih hps' hqs' (List.suffix_append_self_iff.mp hsource)
      (List.suffix_append_self_iff.mp hshown))

end

end Redaction
