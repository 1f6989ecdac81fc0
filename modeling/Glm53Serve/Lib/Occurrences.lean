import Mathlib.Data.List.Infix

/-!
# Occurrences of a text

How often a text occurs in another, overlaps counted, and what an edit in the middle does to
that. An edit replaces `p ++ d ++ s` by `p ++ i ++ s`: the context `p` and `s` stays, the core
`d` goes and `i` comes. An occurrence of another text is left alone if it ends within `p` or
begins within `s`; `free` checks that every other one lies inside the edited text, whatever
stands around it. The counts and the checks are written with the recursor, and look at a single
letter first: they are evaluated on long texts in proofs.

## What is proved

* `occ_append` — the occurrences in two parts, by where they start.
* `started_of_agree` — what starts in one part and ends in the next.
* `occ_frame` — the occurrences around an edited place are those before, those after, and those
  that touch the core.
* `occ_edit`, `occ_le_edit`, `occ_edit_of_absent`, `occ_insert` — what an edit does to their number.
* `exists_agree` — texts that account for every occurrence of what they begin with.
-/

namespace Occurrences

variable {α : Type*} [DecidableEq α]

/-! ### Counting -/

/-- Whether a text can begin with the letter. -/
def begins : List α → α → Bool
  | [], _ => true
  | a :: _, c => a == c

/-- How often `x` occurs in a text. -/
def occ (x t : List α) : ℕ :=
  t.rec 0 fun c t n => cond (begins x c && x.isPrefixOf (c :: t)) (n + 1) n

/-- How often `x` occurs in `u ++ w` with its first letter in `u`. -/
def started (x u w : List α) : ℕ :=
  u.rec 0 fun c u n => cond (begins x c && x.isPrefixOf (c :: (u ++ w))) (n + 1) n

theorem begins_and_isPrefixOf (x t : List α) (c : α) :
    (begins x c && x.isPrefixOf (c :: t)) = x.isPrefixOf (c :: t) := by
  cases x with
  | nil => rfl
  | cons a x =>
    rw [begins, List.isPrefixOf_cons_cons]
    cases a == c <;> rfl

theorem occ_nil (x : List α) : occ x [] = 0 := rfl

theorem occ_cons (x t : List α) (c : α) :
    occ x (c :: t) = (if x.isPrefixOf (c :: t) then 1 else 0) + occ x t := by
  have h : occ x (c :: t) = cond (x.isPrefixOf (c :: t)) (occ x t + 1) (occ x t) :=
    congrArg (cond · (occ x t + 1) (occ x t)) (begins_and_isPrefixOf x t c)
  rw [h, Bool.cond_eq_ite]
  split_ifs <;> omega

theorem started_nil (x w : List α) : started x [] w = 0 := rfl

theorem started_cons (x u w : List α) (c : α) :
    started x (c :: u) w = (if x.isPrefixOf (c :: (u ++ w)) then 1 else 0) + started x u w := by
  have h : started x (c :: u) w =
      cond (x.isPrefixOf (c :: (u ++ w))) (started x u w + 1) (started x u w) :=
    congrArg (cond · (started x u w + 1) (started x u w)) (begins_and_isPrefixOf x (u ++ w) c)
  rw [h, Bool.cond_eq_ite]
  split_ifs <;> omega

theorem started_nil_right (x u : List α) : started x u [] = occ x u := by
  induction u with
  | nil => rfl
  | cons c u ih => rw [started_cons, occ_cons, List.append_nil, ih]

/-- The occurrences in two parts, by where they start. -/
theorem occ_append (x u w : List α) : occ x (u ++ w) = started x u w + occ x w := by
  induction u with
  | nil => rw [List.nil_append, started_nil, Nat.zero_add]
  | cons c u ih => rw [List.cons_append, occ_cons, started_cons, ih, Nat.add_assoc]

theorem occ_pos_iff {x : List α} (hx : x ≠ []) {t : List α} : 0 < occ x t ↔ x <:+: t := by
  induction t with
  | nil => simp [occ_nil, hx]
  | cons c t ih =>
    rw [occ_cons, List.infix_cons_iff, ← ih, ← List.isPrefixOf_iff_prefix]
    split_ifs with h
    · exact iff_of_true (by omega) (.inl h)
    · simp [h]

theorem occ_eq_zero_iff {x : List α} (hx : x ≠ []) {t : List α} : occ x t = 0 ↔ ¬x <:+: t := by
  rw [← occ_pos_iff hx, Nat.pos_iff_ne_zero, not_not]

/-- What starts in `u` is the same before two texts that make no difference to it. -/
theorem started_congr {x u w w' : List α}
    (h : ∀ v, v ≠ [] → v <:+ u → (x <+: v ++ w ↔ x <+: v ++ w')) :
    started x u w = started x u w' := by
  induction u with
  | nil => rfl
  | cons c u ih =>
    have hhead := h (c :: u) (List.cons_ne_nil c u) List.suffix_rfl
    have htail := ih fun v hv hsuf => h v hv (hsuf.trans (List.suffix_cons c u))
    rw [started_cons, started_cons, htail]
    simp only [List.cons_append, ← List.isPrefixOf_iff_prefix] at hhead
    simp only [hhead]

theorem started_mono {x u w w' : List α} (h : ∀ v, x <+: v ++ w → x <+: v ++ w') :
    started x u w ≤ started x u w' := by
  induction u with
  | nil => exact le_rfl
  | cons c u ih =>
    have hhead := h (c :: u)
    rw [started_cons, started_cons]
    simp only [List.cons_append, ← List.isPrefixOf_iff_prefix] at hhead
    refine Nat.add_le_add ?_ ih
    split_ifs with h₁ h₂
    · exact le_rfl
    · exact absurd (hhead h₁) h₂
    · exact Nat.zero_le _
    · exact le_rfl

theorem occ_le_started (x u w : List α) : occ x u ≤ started x u w := by
  rw [← started_nil_right]
  exact started_mono fun v hv => (by rwa [List.append_nil] at hv : x <+: v).trans
    (List.prefix_append v w)

/-- A text occurs in two parts at most as often as in both together. -/
theorem occ_add_le (x u w : List α) : occ x u + occ x w ≤ occ x (u ++ w) := by
  rw [occ_append]
  exact Nat.add_le_add_right (occ_le_started x u w) _

theorem occ_le_frame (x u t w : List α) : occ x t ≤ occ x (u ++ t ++ w) := by
  have hleft := occ_add_le x u t
  have hright := occ_add_le x (u ++ t) w
  omega

/-- Every occurrence of a text has one of its end a letter later. -/
theorem occ_cons_le (c : α) {x : List α} (hx : x ≠ []) (t : List α) :
    occ (c :: x) t ≤ occ x t.tail := by
  induction t with
  | nil => exact Nat.zero_le _
  | cons d t ih =>
    rw [occ_cons, List.tail_cons]
    cases t with
    | nil =>
      rw [if_neg (by simp [List.isPrefixOf_cons_cons, List.isPrefixOf_iff_prefix, hx]), occ_nil,
        Nat.zero_add]
      exact Nat.zero_le _
    | cons d' t =>
      rw [List.tail_cons] at ih
      rw [occ_cons x]
      split_ifs with h₁ h₂
      · omega
      · simp_all [List.isPrefixOf_cons_cons]
      · omega
      · omega

/-- A text occurs at most as often as one of its letters. -/
theorem occ_le_count {x : List α} {c : α} (hc : c ∈ x) (t : List α) : occ x t ≤ t.count c := by
  induction x generalizing t with
  | nil => cases hc
  | cons d x ih =>
    by_cases hd : d = c
    · subst hd
      induction t with
      | nil => exact Nat.zero_le _
      | cons e t iht =>
        rw [occ_cons, List.count_cons]
        split_ifs with h₁ h₂
        · omega
        · simp_all [List.isPrefixOf_cons_cons]
        · omega
        · omega
    · have hmem : c ∈ x := (List.mem_cons.mp hc).resolve_left (Ne.symm hd)
      calc occ (d :: x) t ≤ occ x t.tail := occ_cons_le d (List.ne_nil_of_mem hmem) t
        _ ≤ t.tail.count c := ih hmem _
        _ ≤ t.count c := (List.tail_sublist t).count_le c

/-! ### Overlaps -/

/-- One of two texts begins with the other. -/
def agree : List α → List α → Bool
  | [], _ => true
  | _, [] => true
  | a :: as, b :: bs => a == b && agree as bs

/-- Of the ends of `x`, those that agree with `w` are no longer than `p`. -/
def freeLeft (p w x : List α) : Bool :=
  x.rec true fun c b ih =>
    cond (begins w c) ((!agree (c :: b) w || decide ((c :: b).length ≤ p.length)) && ih) ih

/-- Of the ends of `y`, followed by `s`, none is the beginning of `x` but `x` itself. -/
def freeRight (x s y : List α) : Bool :=
  y.rec true fun c q ih =>
    cond (begins x c)
      (!((c :: (q ++ s)).isPrefixOf x && decide ((c :: (q ++ s)).length < x.length)) && ih) ih

/-- In any surroundings of `p ++ d ++ s`, an occurrence of `x` ends within `p`, begins within `s`
or lies inside. -/
def free (x p d s : List α) : Bool :=
  freeLeft p (p ++ (d ++ s)) x.tail &&
    freeRight x s ((p ++ d).reverse.take (x.length - s.length)).reverse

theorem freeLeft_cons (p w b : List α) (c : α) : freeLeft p w (c :: b) =
    ((!agree (c :: b) w || decide ((c :: b).length ≤ p.length)) && freeLeft p w b) := by
  have h : freeLeft p w (c :: b) = cond (begins w c)
    ((!agree (c :: b) w || decide ((c :: b).length ≤ p.length)) && freeLeft p w b)
    (freeLeft p w b) := rfl
  cases w with
  | nil => exact h
  | cons a w =>
    rw [h, begins, agree, Bool.beq_comm]
    cases c == a <;> rfl

theorem freeRight_cons (x s q : List α) (c : α) : freeRight x s (c :: q) =
    (!((c :: (q ++ s)).isPrefixOf x && decide ((c :: (q ++ s)).length < x.length)) &&
      freeRight x s q) := by
  have h : freeRight x s (c :: q) = cond (begins x c)
    (!((c :: (q ++ s)).isPrefixOf x && decide ((c :: (q ++ s)).length < x.length)) &&
      freeRight x s q) (freeRight x s q) := rfl
  cases x with
  | nil => exact h
  | cons a x =>
    rw [h, begins, List.isPrefixOf_cons_cons, Bool.beq_comm]
    cases c == a <;> rfl

theorem agree_of_isPrefix {a b t : List α} (ha : a <+: t) (hb : b <+: t) : agree a b = true := by
  induction a generalizing b t with
  | nil => rw [agree]
  | cons c a ih =>
    cases b with
    | nil => rfl
    | cons e b =>
      obtain ⟨r, rfl⟩ := ha
      rw [List.cons_append] at hb
      obtain ⟨rfl, htail⟩ := List.cons_prefix_cons.mp hb
      rw [agree, beq_self_eq_true, Bool.true_and]
      exact ih (List.prefix_append a r) htail

theorem agree_append_left (q a b : List α) : agree (q ++ a) (q ++ b) = agree a b := by
  induction q with
  | nil => rfl
  | cons c q ih => rw [List.cons_append, List.cons_append, agree, beq_self_eq_true,
      Bool.true_and, ih]

/-- Words that agree up to the letters behind them are the same. -/
theorem eq_of_agree_of_stop {P : α → Bool} {a b : List α} {c d : α} (ha : ∀ x ∈ a, P x = true)
    (hb : ∀ x ∈ b, P x = true) (hc : P c = false) (hd : P d = false)
    (h : agree (a ++ [c]) (b ++ [d]) = true) : a = b ∧ c = d := by
  induction a generalizing b with
  | nil =>
    cases b with
    | nil =>
      rw [List.nil_append, List.nil_append, agree, Bool.and_eq_true, beq_iff_eq] at h
      exact ⟨rfl, h.1⟩
    | cons y b =>
      rw [List.nil_append, List.cons_append, agree, Bool.and_eq_true, beq_iff_eq] at h
      rw [h.1, hb y List.mem_cons_self] at hc
      cases hc
  | cons x a ih =>
    cases b with
    | nil =>
      rw [List.nil_append, List.cons_append, agree, Bool.and_eq_true, beq_iff_eq] at h
      rw [← h.1, ha x List.mem_cons_self] at hd
      cases hd
    | cons y b =>
      rw [List.cons_append, List.cons_append, agree, Bool.and_eq_true, beq_iff_eq] at h
      obtain ⟨rfl, rfl⟩ := ih (fun z hz => ha z (List.mem_cons_of_mem _ hz))
        (fun z hz => hb z (List.mem_cons_of_mem _ hz)) h.2
      exact ⟨by rw [h.1], rfl⟩

theorem freeLeft_spec {p w x : List α} (h : freeLeft p w x = true) {b : List α} (hb : b <:+ x)
    (hagree : agree b w = true) : b.length ≤ p.length := by
  induction x with
  | nil =>
    rw [List.suffix_nil.mp hb]
    exact Nat.zero_le _
  | cons c x ih =>
    rw [freeLeft_cons, Bool.and_eq_true, Bool.or_eq_true, Bool.not_eq_true', decide_eq_true_eq] at h
    rcases List.suffix_cons_iff.mp hb with rfl | hb
    · exact h.1.resolve_left (by simp [hagree])
    · exact ih h.2 hb

theorem freeRight_spec {x s y : List α} (h : freeRight x s y = true) {q : List α} (hq : q <:+ y)
    (hne : q ≠ []) (hbegins : q ++ s <+: x) : x.length ≤ (q ++ s).length := by
  induction y with
  | nil => exact absurd (List.suffix_nil.mp hq) hne
  | cons c y ih =>
    rw [freeRight_cons, Bool.and_eq_true, Bool.not_eq_true', Bool.and_eq_false_iff,
      decide_eq_false_iff_not, not_lt] at h
    rcases List.suffix_cons_iff.mp hq with rfl | hq
    · refine h.1.resolve_left ?_
      rw [Bool.not_eq_false, List.isPrefixOf_iff_prefix]
      exact hbegins
    · exact ih h.2 hq

theorem started_left {x p d s : List α} (h : free x p d s = true) (u v : List α) :
    started x u (p ++ (d ++ (s ++ v))) = started x u p := by
  refine started_congr fun w hw _ => ⟨fun hx => ?_, fun hx => ?_⟩
  · by_contra hnot
    have hlong : w ++ p <+: x := by
      have hwp : w ++ p <+: w ++ (p ++ (d ++ (s ++ v))) := by
        rw [← List.append_assoc]
        exact List.prefix_append _ _
      rcases Nat.le_total x.length (w ++ p).length with hle | hle
      · exact absurd (List.prefix_of_prefix_length_le hx hwp hle) hnot
      · exact List.prefix_of_prefix_length_le hwp hx hle
    obtain ⟨r, rfl⟩ := hlong
    -- what stands behind `w` in `x` overlaps the edited text beyond `p`
    have hr : r ≠ [] := by
      rintro rfl
      rw [List.append_nil] at hnot
      exact hnot List.prefix_rfl
    obtain ⟨c, w, rfl⟩ := List.exists_cons_of_ne_nil hw
    have hsuf : p ++ r <:+ (c :: w ++ p ++ r).tail := ⟨w, by simp⟩
    have hpr : p ++ r <+: p ++ (d ++ s) ++ v := by
      have := hx
      rw [List.append_assoc, List.prefix_append_right_inj] at this
      simpa only [List.append_assoc] using this
    have hle := freeLeft_spec (Bool.and_eq_true_iff.mp h).1 hsuf
      (agree_of_isPrefix hpr (List.prefix_append _ v))
    rw [List.length_append] at hle
    exact hr (List.length_eq_zero_iff.mp (by omega))
  · refine hx.trans ?_
    rw [← List.append_assoc]
    exact List.prefix_append _ _

theorem started_core {x p d s : List α} (h : free x p d s = true) (v : List α) :
    started x (p ++ d) (s ++ v) = started x (p ++ d) s := by
  refine started_congr fun w hw hsuf => ⟨fun hx => ?_, fun hx => ?_⟩
  · by_contra hnot
    have hws : w ++ s <+: w ++ (s ++ v) := by
      rw [← List.append_assoc]
      exact List.prefix_append _ _
    rcases Nat.le_total x.length (w ++ s).length with hle | hle
    · exact hnot (List.prefix_of_prefix_length_le hx hws hle)
    · have hlong := List.prefix_of_prefix_length_le hws hx hle
      have hend : w <:+ ((p ++ d).reverse.take (x.length - s.length)).reverse := by
        rw [List.length_append] at hle
        rw [List.take_reverse, List.reverse_reverse, List.suffix_iff_eq_drop.mp hsuf]
        have hk : (p ++ d).length - (x.length - s.length) ≤ (p ++ d).length - w.length := by omega
        obtain ⟨k, hk⟩ := Nat.exists_eq_add_of_le hk
        rw [hk, ← List.drop_drop]
        exact List.drop_suffix _ _
      have := freeRight_spec (Bool.and_eq_true_iff.mp h).2 hend hw hlong
      exact hnot (hlong.eq_of_length (Nat.le_antisymm hle this) ▸ List.prefix_rfl)
  · refine hx.trans ?_
    rw [← List.append_assoc]
    exact List.prefix_append _ _

/-- What starts in `u` ends there if `u` ends in no beginning of `x` whose rest agrees with what
follows. -/
theorem started_of_agree {x u w : List α}
    (h : ∀ v e, x = v ++ e → v ≠ [] → e ≠ [] → agree e w = true → ¬v <:+ u) (r : List α) :
    started x u (w ++ r) = occ x u := by
  rw [← started_nil_right]
  refine started_congr fun v hv hsuf => ⟨fun hx => ?_, fun hx => ?_⟩
  · rw [List.append_nil]
    by_contra hnot
    have hvx : v <+: x := by
      rcases Nat.le_total x.length v.length with hle | hle
      · exact absurd (List.prefix_of_prefix_length_le hx (List.prefix_append v _) hle) hnot
      · exact List.prefix_of_prefix_length_le (List.prefix_append v _) hx hle
    obtain ⟨e, rfl⟩ := hvx
    rw [List.prefix_append_right_inj] at hx
    have he : e ≠ [] := by
      rintro rfl
      exact hnot (by rw [List.append_nil])
    exact h v e rfl hv he (agree_of_isPrefix hx (List.prefix_append w r)) hsuf
  · rw [List.append_nil] at hx
    exact hx.trans (List.prefix_append v _)

/-- No end of `x` but itself agrees with `w`. -/
theorem started_of_freeLeft {x w : List α} (h : freeLeft [] w x.tail = true) (u r : List α) :
    started x u (w ++ r) = occ x u := by
  refine started_of_agree (fun v e hx hv he hagree _ => he ?_) r
  obtain ⟨c, v, rfl⟩ := List.exists_cons_of_ne_nil hv
  have hend : e <:+ x.tail := ⟨v, by rw [hx]; rfl⟩
  exact List.length_eq_zero_iff.mp (Nat.le_zero.mp (freeLeft_spec h hend hagree))

/-- A text put before `w` that no occurrence of `x` reaches into. -/
theorem occ_insert {x ins w u : List α} (hw : freeLeft [] w x.tail = true)
    (hins : ∀ v e, x = v ++ e → v ≠ [] → e ≠ [] → agree e ins = true → ¬v <:+ u)
    (h0 : occ x ins = 0) (v : List α) : occ x (u ++ (ins ++ (w ++ v))) = occ x (u ++ (w ++ v)) := by
  rw [occ_append, occ_append x u, occ_append x ins, started_of_agree hins, started_of_freeLeft hw,
    started_of_freeLeft hw, h0, Nat.zero_add]

/-! ### Edits -/

/-- The occurrences of `x` in `p ++ d ++ s` that start before `s`. -/
def touching (x p d s : List α) : ℕ := started x (p ++ d) s

/-- The occurrences around an edited place. -/
theorem occ_frame {x p d s : List α} (h : free x p d s = true) (u v : List α) :
    occ x (u ++ (p ++ (d ++ s)) ++ v) = started x u p + touching x p d s + occ x (s ++ v) := by
  have hassoc : u ++ (p ++ (d ++ s)) ++ v = u ++ ((p ++ d) ++ (s ++ v)) := by
    simp only [List.append_assoc]
  rw [hassoc, occ_append, occ_append, started_core h, touching, List.append_assoc, started_left h,
    Nat.add_assoc]

/-- An edit that is free of `x` before and after. -/
theorem occ_edit {x p d i s : List α} (hd : free x p d s = true) (hi : free x p i s = true)
    (u v : List α) :
    occ x (u ++ (p ++ (i ++ s)) ++ v) + touching x p d s =
      occ x (u ++ (p ++ (d ++ s)) ++ v) + touching x p i s := by
  rw [occ_frame hd, occ_frame hi]
  omega

/-- An edit whose core no occurrence of `x` touches leaves them all. -/
theorem occ_le_edit {x p d s : List α} (hd : free x p d s = true)
    (ht : touching x p d s = occ x p) (i u v : List α) :
    occ x (u ++ (p ++ (d ++ s)) ++ v) ≤ occ x (u ++ (p ++ (i ++ s)) ++ v) := by
  have hassoc : u ++ (p ++ (i ++ s)) ++ v = (u ++ p) ++ (i ++ (s ++ v)) := by
    simp only [List.append_assoc]
  have hleft := occ_le_started x (u ++ p) (i ++ (s ++ v))
  have hp : occ x (u ++ p) = started x u p + occ x p := occ_append x u p
  have hright : occ x (s ++ v) ≤ occ x (i ++ (s ++ v)) := by
    rw [occ_append x i]
    exact Nat.le_add_left _ _
  rw [occ_frame hd, hassoc, occ_append x (u ++ p), ht]
  omega

/-- An edit of a text without `x`. -/
theorem occ_edit_of_absent {x p d i s : List α} (hi : free x p i s = true) {u v : List α}
    (h0 : occ x (u ++ (p ++ (d ++ s)) ++ v) = 0) :
    occ x (u ++ (p ++ (i ++ s)) ++ v) = touching x p i s := by
  have hassoc : u ++ (p ++ (d ++ s)) ++ v = (u ++ p) ++ (d ++ (s ++ v)) := by
    simp only [List.append_assoc]
  rw [hassoc, occ_append, occ_append] at h0
  have hleft := occ_le_started x (u ++ p) (d ++ (s ++ v))
  have hp : occ x (u ++ p) = started x u p + occ x p := occ_append x u p
  rw [occ_frame hi]
  omega

/-! ### Covers -/

/-- How often some texts occur, together. -/
def occAll (xs : List (List α)) (t : List α) : ℕ := xs.foldr (fun x n => occ x t + n) 0

theorem occAll_cons (xs : List (List α)) (t : List α) (c : α) :
    occAll xs (c :: t) = xs.countP (fun x => x.isPrefixOf (c :: t)) + occAll xs t := by
  induction xs with
  | nil => rfl
  | cons x xs ih =>
    rw [occAll, List.foldr_cons, ← occAll, ih, occ_cons, List.countP_cons, occAll, occAll,
      List.foldr_cons]
    omega

/-- Of texts that do not agree, at most one begins a text. -/
theorem countP_isPrefixOf_le_one {xs : List (List α)} (h : xs.Pairwise fun x y => agree x y = false)
    (t : List α) : xs.countP (fun x => x.isPrefixOf t) ≤ 1 := by
  induction xs with
  | nil => exact Nat.zero_le 1
  | cons x xs ih =>
    obtain ⟨hx, hxs⟩ := List.pairwise_cons.mp h
    rw [List.countP_cons]
    split_ifs with hp
    · have hnone : xs.countP (fun y => y.isPrefixOf t) = 0 := by
        refine List.countP_eq_zero.mpr fun y hy hpy => ?_
        have := agree_of_isPrefix (List.isPrefixOf_iff_prefix.mp hp)
          (List.isPrefixOf_iff_prefix.mp hpy)
        rw [hx y hy] at this
        exact Bool.false_ne_true this
      rw [hnone]
    · exact ih hxs

/-- Texts that begin with `q` and do not agree occur at most as often as `q`. -/
theorem countP_isPrefixOf_le {q : List α} {xs : List (List α)} (hq : ∀ x ∈ xs, q <+: x)
    (h : xs.Pairwise fun x y => agree x y = false) (t : List α) :
    xs.countP (fun x => x.isPrefixOf t) ≤ if q.isPrefixOf t then 1 else 0 := by
  split_ifs with hp
  · exact countP_isPrefixOf_le_one h t
  · refine (List.countP_eq_zero.mpr fun x hx hpx => hp ?_).le
    rw [List.isPrefixOf_iff_prefix] at hpx ⊢
    exact (hq x hx).trans hpx

theorem occAll_le {q : List α} {xs : List (List α)} (hq : ∀ x ∈ xs, q <+: x)
    (h : xs.Pairwise fun x y => agree x y = false) (t : List α) : occAll xs t ≤ occ q t := by
  induction t with
  | nil =>
    have hnil : occAll xs ([] : List α) = 0 := by
      clear hq h
      induction xs with
      | nil => rfl
      | cons x xs ih => rw [occAll, List.foldr_cons, ← occAll, ih, occ_nil]
    rw [hnil]
    exact Nat.zero_le _
  | cons c t ih =>
    rw [occAll_cons, occ_cons]
    exact Nat.add_le_add (countP_isPrefixOf_le hq h _) ih

/-- **Where texts that do not agree account for every occurrence of `q`**, what begins with `q` and
occurs agrees with one of them. -/
theorem exists_agree {q : List α} {xs : List (List α)} (hne : q ≠ []) (hq : ∀ x ∈ xs, q <+: x)
    (h : xs.Pairwise fun x y => agree x y = false) {t : List α} (hall : occAll xs t = occ q t)
    {y : List α} (hy : q <+: y) (ht : y <:+: t) : ∃ x ∈ xs, agree x y = true := by
  induction t with
  | nil =>
    obtain rfl := List.infix_nil.mp ht
    exact absurd (List.prefix_nil.mp hy) hne
  | cons c t ih =>
    rw [occAll_cons, occ_cons] at hall
    -- neither part is below its bound
    have htail : occAll xs t = occ q t := Nat.le_antisymm (occAll_le hq h t)
      (Nat.le_of_add_le_add_left
        (hall.symm.trans_le (Nat.add_le_add_right (countP_isPrefixOf_le hq h (c :: t)) _)))
    rw [htail] at hall
    have hhead := Nat.add_right_cancel hall
    rcases List.infix_cons_iff.mp ht with hp | hin
    · rw [if_pos (List.isPrefixOf_iff_prefix.mpr (hy.trans hp))] at hhead
      obtain ⟨x, hx, hxp⟩ := List.countP_pos_iff.mp (hhead ▸ Nat.one_pos)
      exact ⟨x, hx, agree_of_isPrefix (List.isPrefixOf_iff_prefix.mp hxp) hp⟩
    · exact ih htail hin

end Occurrences
