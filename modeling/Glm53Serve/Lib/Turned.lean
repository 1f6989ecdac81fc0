import Glm53Serve.Lib.Occurrences

/-!
# Checks of edits, from their ends

The checks of `Occurrences` are evaluated on long texts in proofs. Here they are once more for that:
the texts are compared from their ends, since lines begin alike, with blanks, and everything is
written with the recursors.

## What is proved

* `occ_reverse` — the occurrences in a text that is turned.
* `clear_eq`, `meets_eq` — the checks are those of `Occurrences` on the turned texts.
* `occ_edit_clear`, `occ_le_edit_clear`, `occ_edit_of_clear` — so they say the same of an edit.
-/

namespace Occurrences

variable {α : Type*} [DecidableEq α]

/-! ### Turned texts -/

theorem occ_cons_ite (x t : List α) (c : α) :
    occ x (c :: t) = occ x t + if x <+: c :: t then 1 else 0 := by
  rw [occ_cons, Nat.add_comm]
  exact congrArg (_ + ·) (if_congr List.isPrefixOf_iff_prefix rfl rfl)

/-- The occurrences in a text with one more letter at the end. -/
theorem occ_concat {x : List α} (hx : x ≠ []) (t : List α) (c : α) :
    occ x (t ++ [c]) = occ x t + if x <:+ t ++ [c] then 1 else 0 := by
  induction t with
  | nil =>
    have hone : x <+: [c] ↔ x <:+ [c] := by
      rw [List.prefix_cons_iff, List.suffix_cons_iff]
      constructor
      · rintro (h | ⟨u, rfl, hu⟩)
        · exact absurd h hx
        · exact .inl (by rw [List.prefix_nil.mp hu])
      · rintro (rfl | h)
        · exact .inr ⟨[], rfl, List.prefix_rfl⟩
        · exact absurd (List.suffix_nil.mp h) hx
    rw [List.nil_append, occ_cons_ite]
    exact congrArg (_ + ·) (if_congr hone rfl rfl)
  | cons a t ih =>
    have hstart : x <+: a :: (t ++ [c]) ↔ x = a :: (t ++ [c]) ∨ x <+: a :: t := by
      rw [← List.cons_append, List.prefix_concat_iff]
    rw [List.cons_append, occ_cons_ite, occ_cons_ite, ih]
    by_cases hall : x = a :: (t ++ [c])
    · have hlen : x.length = t.length + 2 := by simp [hall]
      have hleft : ¬x <+: a :: t := fun h => by
        have := h.length_le
        rw [List.length_cons] at this
        omega
      have hright : ¬x <:+ t ++ [c] := fun h => by
        have := h.length_le
        rw [List.length_append, List.length_singleton] at this
        omega
      rw [if_pos (hstart.mpr (.inl hall)), if_neg hleft, if_neg hright,
        if_pos (List.suffix_cons_iff.mpr (.inl hall))]
    · have hend : x <:+ a :: (t ++ [c]) ↔ x <:+ t ++ [c] := by
        rw [List.suffix_cons_iff, or_iff_right hall]
      rw [or_iff_right hall] at hstart
      rw [if_congr hstart rfl rfl, if_congr hend rfl rfl]
      omega

/-- The occurrences in a text that is turned. -/
theorem occ_reverse (x t : List α) : occ x.reverse t.reverse = occ x t := by
  induction t with
  | nil => rfl
  | cons c t ih =>
    rcases eq_or_ne x [] with rfl | hx
    · have hlength : ∀ u : List α, occ [] u = u.length := fun u => by
        induction u with
        | nil => rfl
        | cons a u ih => rw [occ_cons_ite, ih, if_pos List.nil_prefix, List.length_cons]
      rw [List.reverse_nil, hlength, hlength, List.length_reverse]
    · rw [List.reverse_cons, occ_concat (by simpa using hx), ih, occ_cons_ite, ← List.reverse_cons]
      exact congrArg (_ + ·) (if_congr List.reverse_suffix rfl rfl)

/-! ### With the recursors -/

/-- `u ++ w`. -/
def joined (u w : List α) : List α := u.rec w fun c _ t => c :: t

/-- `u.reverse ++ w`. -/
def turned (u : List α) : List α → List α := u.rec (fun w => w) fun c _ ih w => ih (c :: w)

/-- `x.isPrefixOf t`. -/
def startsWith (x : List α) : List α → Bool :=
  x.rec (fun _ => true) fun a _ ih t => t.rec false fun c t _ => (a == c).rec false (ih t)

/-- `agree x t`. -/
def agrees (x : List α) : List α → Bool :=
  x.rec (fun _ => true) fun a _ ih t => t.rec true fun c t _ => (a == c).rec false (ih t)

/-- Whether `x` is longer than `p`. -/
def longer (x : List α) : List α → Bool :=
  x.rec (fun _ => false) fun _ _ ih p => p.rec true fun _ p _ => ih p

/-- The letters of `x` behind as many as `p` has. -/
def behind (p : List α) : List α → List α :=
  p.rec (fun x => x) fun _ _ ih x => x.rec [] fun _ x _ => ih x

/-- The first letters of `y`, as many as `m` has, turned and put before `w`. -/
def firsts (m : List α) : List α → List α → List α :=
  m.rec (fun _ w => w) fun _ _ ih y w => y.rec w fun c y _ => ih y (c :: w)

/-- `started x u w`. -/
def startsIn (x u w : List α) : ℕ :=
  x.rec (started [] u w) fun a x _ => u.rec 0 fun c u n =>
    (a == c).rec n ((startsWith x (joined u w)).rec n n.succ)

/-- `freeLeft p w x`. -/
def clearLeft (p w x : List α) : Bool :=
  w.rec (freeLeft p [] x) fun a w _ => x.rec true fun c b ih =>
    (c == a).rec ih ((agrees b w).rec ih ((longer (c :: b) p).rec ih false))

/-- `freeRight x s y`. -/
def clearRight (x s y : List α) : Bool :=
  x.rec true fun a x _ => y.rec true fun c q ih =>
    (a == c).rec ih ((startsWith (joined q s) x).rec ih ((longer x (joined q s)).rec ih false))

omit [DecidableEq α] in
theorem joined_eq (u w : List α) : joined u w = u ++ w := by
  induction u with
  | nil => rfl
  | cons c u ih => exact congrArg (c :: ·) ih

omit [DecidableEq α] in
theorem turned_eq (u w : List α) : turned u w = u.reverse ++ w := by
  induction u generalizing w with
  | nil => rfl
  | cons c u ih =>
    rw [List.reverse_cons, List.append_assoc]
    exact ih (c :: w)

theorem startsWith_eq (x t : List α) : startsWith x t = x.isPrefixOf t := by
  induction x generalizing t with
  | nil => cases t <;> rfl
  | cons a x ih =>
    cases t with
    | nil => rfl
    | cons c t =>
      have h : startsWith (a :: x) (c :: t) = (a == c).rec false (startsWith x t) := rfl
      rw [h, ih, List.isPrefixOf_cons_cons]
      cases a == c <;> rfl

theorem agrees_eq (x t : List α) : agrees x t = agree x t := by
  induction x generalizing t with
  | nil => cases t <;> rfl
  | cons a x ih =>
    cases t with
    | nil => rfl
    | cons c t =>
      have h : agrees (a :: x) (c :: t) = (a == c).rec false (agrees x t) := rfl
      rw [h, ih, agree]
      cases a == c <;> rfl

omit [DecidableEq α] in
theorem longer_eq (x p : List α) : longer x p = decide (p.length < x.length) := by
  induction x generalizing p with
  | nil => rfl
  | cons a x ih =>
    cases p with
    | nil => rfl
    | cons c p =>
      have h : longer (a :: x) (c :: p) = longer x p := rfl
      rw [h, ih]
      exact decide_eq_decide.mpr Nat.succ_lt_succ_iff.symm

omit [DecidableEq α] in
theorem behind_eq (p x : List α) : behind p x = x.drop p.length := by
  induction p generalizing x with
  | nil => rfl
  | cons a p ih =>
    cases x with
    | nil => rfl
    | cons c x => exact ih x

omit [DecidableEq α] in
theorem firsts_eq (m y w : List α) : firsts m y w = (y.take m.length).reverse ++ w := by
  induction m generalizing y w with
  | nil => rfl
  | cons a m ih =>
    cases y with
    | nil => rfl
    | cons c y =>
      rw [List.length_cons, List.take_succ_cons, List.reverse_cons, List.append_assoc]
      exact ih y (c :: w)

theorem startsIn_eq (x u w : List α) : startsIn x u w = started x u w := by
  cases x with
  | nil => rfl
  | cons a x =>
    induction u with
    | nil => rfl
    | cons c u ih =>
      have h : startsIn (a :: x) (c :: u) w = (a == c).rec (startsIn (a :: x) u w)
        ((startsWith x (joined u w)).rec (startsIn (a :: x) u w) (startsIn (a :: x) u w).succ) :=
          rfl
      rw [h, ih, started_cons, startsWith_eq, joined_eq, List.isPrefixOf_cons_cons]
      cases a == c
      · exact (Nat.zero_add _).symm
      · cases x.isPrefixOf (u ++ w)
        · exact (Nat.zero_add _).symm
        · exact Nat.add_comm (started (a :: x) u w) 1

theorem clearLeft_eq (p w x : List α) : clearLeft p w x = freeLeft p w x := by
  cases w with
  | nil => rfl
  | cons a w =>
    induction x with
    | nil => rfl
    | cons c b ih =>
      have h : clearLeft p (a :: w) (c :: b) = (c == a).rec (clearLeft p (a :: w) b)
        ((agrees b w).rec (clearLeft p (a :: w) b)
          ((longer (c :: b) p).rec (clearLeft p (a :: w) b) false)) := rfl
      rw [h, ih, freeLeft_cons, agree, agrees_eq, longer_eq]
      cases c == a
      · rfl
      · cases agree b w
        · rfl
        · by_cases hlong : p.length < (c :: b).length
          · rw [decide_eq_true hlong, decide_eq_false (Nat.not_le.mpr hlong)]
            rfl
          · rw [decide_eq_false hlong, decide_eq_true (Nat.not_lt.mp hlong)]
            rfl

theorem clearRight_eq (x s y : List α) : clearRight x s y = freeRight x s y := by
  cases x with
  | nil =>
    induction y with
    | nil => rfl
    | cons c q ih =>
      rw [freeRight_cons, ← ih]
      rfl
  | cons a x =>
    induction y with
    | nil => rfl
    | cons c q ih =>
      have h : clearRight (a :: x) s (c :: q) = (a == c).rec (clearRight (a :: x) s q)
        ((startsWith (joined q s) x).rec (clearRight (a :: x) s q)
          ((longer x (joined q s)).rec (clearRight (a :: x) s q) false)) := rfl
      have hlength : decide ((c :: (q ++ s)).length < (a :: x).length) =
          decide ((q ++ s).length < x.length) := decide_eq_decide.mpr Nat.succ_lt_succ_iff
      rw [h, ih, freeRight_cons, startsWith_eq, joined_eq, longer_eq, List.isPrefixOf_cons_cons,
        hlength, Bool.beq_comm]
      cases c == a
      · rfl
      · cases (q ++ s).isPrefixOf x
        · rfl
        · cases decide ((q ++ s).length < x.length) <;> rfl

/-- `occ x t`, of the turned texts. -/
def occurs (x t : List α) : ℕ := startsIn (turned x []) (turned t []) []

theorem occurs_eq (x t : List α) : occurs x t = occ x t := by
  rw [occurs, startsIn_eq, started_nil_right, turned_eq, turned_eq, List.append_nil,
    List.append_nil,
    occ_reverse]

/-! ### Edits -/

/-- `free`, of the turned texts. -/
def clear (x p d s : List α) : Bool :=
  (clearLeft (turned s []) (turned (joined p (joined d s)) []) (turned x []).tail).rec false
    (clearRight (turned x []) (turned p []) (firsts (behind p x) (joined d s) []))

/-- `touching`, of the turned texts. -/
def meets (x p d s : List α) : ℕ := startsIn (turned x []) (turned (joined d s) []) (turned p [])

theorem clear_eq (x p d s : List α) :
    clear x p d s = free x.reverse s.reverse d.reverse p.reverse := by
  have hbool : ∀ a b : Bool, a.rec false b = (a && b) := fun a b => by cases a <;> rfl
  rw [clear, hbool, free, clearLeft_eq, clearRight_eq]
  simp only [turned_eq, joined_eq, firsts_eq, behind_eq, List.append_nil, List.length_drop,
    List.length_reverse, List.reverse_append, List.reverse_reverse, List.append_assoc]

theorem meets_eq (x p d s : List α) :
    meets x p d s = touching x.reverse s.reverse d.reverse p.reverse := by
  rw [meets, touching, startsIn_eq]
  simp only [turned_eq, joined_eq, List.append_nil, List.reverse_append]

/-- An edited text, turned. -/
theorem occ_turned (x u p d s v : List α) :
    occ x.reverse (v.reverse ++ (s.reverse ++ (d.reverse ++ p.reverse)) ++ u.reverse) =
      occ x (u ++ (p ++ (d ++ s)) ++ v) := by
  rw [← occ_reverse x (u ++ (p ++ (d ++ s)) ++ v)]
  simp only [List.reverse_append, List.append_assoc]

theorem occ_frame_clear {x p d s : List α} (h : clear x p d s = true) (u v : List α) :
    occ x (u ++ (p ++ (d ++ s)) ++ v) =
      started x.reverse v.reverse s.reverse + meets x p d s + occ x (u ++ p) := by
  rw [clear_eq] at h
  rw [← occ_turned, occ_frame h, meets_eq, ← occ_reverse x (u ++ p), List.reverse_append]

theorem occ_edit_clear {x p d i s : List α} (hd : clear x p d s = true) (hi : clear x p i s = true)
    (u v : List α) :
    occ x (u ++ (p ++ (i ++ s)) ++ v) + meets x p d s =
      occ x (u ++ (p ++ (d ++ s)) ++ v) + meets x p i s := by
  rw [clear_eq] at hd hi
  rw [← occ_turned, ← occ_turned x u p d s v, meets_eq, meets_eq]
  exact occ_edit hd hi v.reverse u.reverse

theorem occ_le_edit_clear {x p d s : List α} (hd : clear x p d s = true)
    (ht : meets x p d s = occ x s) (i u v : List α) :
    occ x (u ++ (p ++ (d ++ s)) ++ v) ≤ occ x (u ++ (p ++ (i ++ s)) ++ v) := by
  rw [clear_eq] at hd
  rw [meets_eq, ← occ_reverse x s] at ht
  rw [← occ_turned, ← occ_turned x u p i s v]
  exact occ_le_edit hd ht i.reverse v.reverse u.reverse

theorem occ_edit_of_clear {x p d i s : List α} (hi : clear x p i s = true) {u v : List α}
    (h0 : occ x (u ++ (p ++ (d ++ s)) ++ v) = 0) :
    occ x (u ++ (p ++ (i ++ s)) ++ v) = meets x p i s := by
  rw [clear_eq] at hi
  rw [← occ_turned] at h0 ⊢
  rw [meets_eq]
  exact occ_edit_of_absent hi h0

end Occurrences
