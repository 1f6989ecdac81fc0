import Glm53Serve.Lib.Turned

/-!
# Edits by replacement

An edit replaces the first occurrence of one text by another. What a later edit does to what an
earlier one has put there, and in which cases two edits may change places, is checked on the
texts of the edits alone.

## What is proved

* `replaceFirst_of_once` — a text that occurs once is replaced where it occurs.
* `Edit.occ_le_apply`, `Edit.occ_apply_of_absent`, `Edit.occ_apply` — what an edit does to the
  occurrences of another text.
* `Edit.occ_new_applyAll`, `Edit.Patches.new_within` — what each edit of a list has put there is
  there at the end.
* `Edit.applyAll_comm` — lists of edits that do not meddle with each other may change places.
-/

namespace Occurrences

variable {α : Type*} [DecidableEq α]

/-! ### Replacing -/

/-- What stands before and behind the first occurrence of `x`. -/
def splitFirst (x : List α) : List α → Option (List α × List α)
  | [] => none
  | c :: t =>
    if x.isPrefixOf (c :: t) then some ([], (c :: t).drop x.length)
    else (splitFirst x t).map fun uv => (c :: uv.1, uv.2)

/-- The text with the first occurrence of `x` replaced by `y`. -/
def replaceFirst (x y t : List α) : List α :=
  match splitFirst x t with
  | some (u, v) => u ++ y ++ v
  | none => t

theorem splitFirst_eq_some {x t u v : List α} (h : splitFirst x t = some (u, v)) :
    t = u ++ x ++ v := by
  induction t generalizing u with
  | nil => cases h
  | cons c t ih =>
    rw [splitFirst] at h
    split_ifs at h with hp
    · cases h
      obtain ⟨r, hr⟩ := List.isPrefixOf_iff_prefix.mp hp
      rw [List.nil_append, ← hr, List.drop_left]
    · obtain ⟨⟨u', v'⟩, huv, heq⟩ := Option.map_eq_some_iff.mp h
      cases heq
      rw [List.cons_append, List.cons_append, ← ih huv]

theorem splitFirst_eq_none {x t : List α} : splitFirst x t = none ↔ occ x t = 0 := by
  induction t with
  | nil => exact iff_of_true rfl rfl
  | cons c t ih =>
    rw [splitFirst, occ_cons]
    split_ifs with hp
    · exact iff_of_false (by simp) (by omega)
    · rw [Option.map_eq_none_iff, ih, Nat.zero_add]

/-- Where the text occurs, it is replaced. -/
theorem exists_replaceFirst {x t : List α} (h : occ x t ≠ 0) (y : List α) :
    ∃ u v, t = u ++ x ++ v ∧ replaceFirst x y t = u ++ y ++ v := by
  cases hs : splitFirst x t with
  | none => exact absurd (splitFirst_eq_none.mp hs) h
  | some uv => exact ⟨uv.1, uv.2, splitFirst_eq_some hs, by rw [replaceFirst, hs]⟩

theorem occ_append_self_pos {x : List α} (hx : x ≠ []) (u v : List α) : 0 < occ x (u ++ x ++ v) :=
  (occ_pos_iff hx).mpr ⟨u, v, rfl⟩

/-- Where a text occurs once, it is found there. -/
theorem splitFirst_of_once {x u v : List α} (hx : x ≠ []) (h : occ x (u ++ x ++ v) = 1) :
    splitFirst x (u ++ x ++ v) = some (u, v) := by
  induction u with
  | nil =>
    obtain ⟨c, x, rfl⟩ := List.exists_cons_of_ne_nil hx
    rw [List.nil_append, List.cons_append, splitFirst, if_pos, ← List.cons_append, List.drop_left]
    rw [List.isPrefixOf_iff_prefix, ← List.cons_append]
    exact List.prefix_append _ v
  | cons c u ih =>
    have hpos := occ_append_self_pos hx u v
    rw [List.cons_append, List.cons_append, occ_cons] at h
    rw [List.cons_append, List.cons_append, splitFirst, if_neg, ih (by omega), Option.map_some]
    intro hp
    rw [if_pos hp] at h
    omega

/-- A text that occurs once is replaced where it occurs. -/
theorem replaceFirst_of_once {x u v : List α} (hx : x ≠ []) (h : occ x (u ++ x ++ v) = 1)
    (y : List α) : replaceFirst x y (u ++ x ++ v) = u ++ y ++ v := by
  rw [replaceFirst, splitFirst_of_once hx h]

/-- A text that occurs once has one place. -/
theorem append_inj_of_once {x u v u' v' : List α} (hx : x ≠ []) (h : occ x (u ++ x ++ v) = 1)
    (heq : u ++ x ++ v = u' ++ x ++ v') : u = u' ∧ v = v' := by
  have hsplit := splitFirst_of_once hx h
  rw [heq] at h hsplit
  rw [splitFirst_of_once hx h] at hsplit
  cases hsplit
  exact ⟨rfl, rfl⟩

/-! ### Edits -/

/-- An edit: `cut` is replaced by `put` where it stands between `before` and `after`. -/
structure Edit (α : Type*) where
  before : List α
  cut : List α
  put : List α
  after : List α

namespace Edit

/-- The text that is looked for. -/
def old (e : Edit α) : List α := e.before ++ (e.cut ++ e.after)

/-- The text that takes its place. -/
def new (e : Edit α) : List α := e.before ++ (e.put ++ e.after)

/-- The edited text. -/
def apply (e : Edit α) (t : List α) : List α := replaceFirst e.old e.new t

/-- What two texts begin with, and the rests. -/
def common (as : List α) : List α → List α × List α × List α :=
  as.rec (fun bs => ([], [], bs)) fun a as ih bs =>
    bs.rec ([], a :: as, []) fun b bs _ =>
      (a == b).rec ([], a :: as, b :: bs) (a :: (ih bs).1, (ih bs).2)

theorem common_eq (as bs : List α) :
    (common as bs).1 ++ (common as bs).2.1 = as ∧ (common as bs).1 ++ (common as bs).2.2 = bs := by
  induction as generalizing bs with
  | nil => exact ⟨rfl, rfl⟩
  | cons a as ih =>
    cases bs with
    | nil => exact ⟨rfl, rfl⟩
    | cons b bs =>
      have hcommon : common (a :: as) (b :: bs) =
        (a == b).rec ([], a :: as, b :: bs) (a :: (common as bs).1, (common as bs).2) := rfl
      rw [hcommon]
      cases hab : a == b with
      | false => exact ⟨rfl, rfl⟩
      | true =>
        obtain rfl := beq_iff_eq.mp hab
        obtain ⟨h₁, h₂⟩ := ih bs
        exact ⟨congrArg (a :: ·) h₁, congrArg (a :: ·) h₂⟩

/-- The edit that replaces `x` by `y`: the last letter is left to the context behind the edit, then
all that the two begin with to the one before, then all that they end with. -/
def between (x y : List α) : Edit α :=
  let last := (common (turned x []).head?.toList (turned y []).head?.toList).1
  let r := common (turned (behind last (turned x [])) []) (turned (behind last (turned y [])) [])
  let q := common (turned r.2.1 []) (turned r.2.2 [])
  ⟨r.1, turned q.2.1 [], turned q.2.2 [], turned q.1 last⟩

theorem between_spec (x y : List α) : (between x y).old = x ∧ (between x y).new = y := by
  rw [between]
  simp only [turned_eq, behind_eq, List.append_nil]
  obtain ⟨hlx, hly⟩ := common_eq x.reverse.head?.toList y.reverse.head?.toList
  set last := (common x.reverse.head?.toList y.reverse.head?.toList).1 with hlast
  have hdrop : ∀ z : List α, (∃ r, last ++ r = z.reverse.head?.toList) →
      (z.reverse.drop last.length).reverse ++ last = z := by
    rintro z ⟨r, hr⟩
    cases hz : z.reverse with
    | nil =>
      rw [hz] at hr
      obtain ⟨hnil, -⟩ := List.append_eq_nil_iff.mp hr
      rw [List.reverse_eq_nil_iff.mp hz, hnil]
      rfl
    | cons c w =>
      rw [hz] at hr
      have hz' : z = w.reverse ++ [c] := by rw [← List.reverse_reverse z, hz, List.reverse_cons]
      rw [hz']
      rcases hl : last with _ | ⟨d, l⟩
      · simp
      · rw [hl] at hr
        obtain ⟨rfl, hl'⟩ := List.cons.inj hr
        obtain ⟨rfl, -⟩ := List.append_eq_nil_iff.mp hl'
        simp
  obtain ⟨hrx, hry⟩ := common_eq (x.reverse.drop last.length).reverse
    (y.reverse.drop last.length).reverse
  set r := common (x.reverse.drop last.length).reverse (y.reverse.drop last.length).reverse
  obtain ⟨hqx, hqy⟩ := common_eq r.2.1.reverse r.2.2.reverse
  set q := common r.2.1.reverse r.2.2.reverse
  rw [old, new]
  constructor
  · rw [← List.append_assoc q.2.1.reverse, ← List.reverse_append, hqx, List.reverse_reverse,
      ← List.append_assoc, hrx]
    exact hdrop x ⟨_, hlx⟩
  · rw [← List.append_assoc q.2.2.reverse, ← List.reverse_append, hqy, List.reverse_reverse,
      ← List.append_assoc, hry]
    exact hdrop y ⟨_, hly⟩

/-! ### What an edit does to another text -/

/-- The edit destroys no occurrence of `x`. -/
def keeps (x : List α) (e : Edit α) : Bool :=
  clear x e.before e.cut e.after && meets x e.before e.cut e.after == startsIn x e.after []

/-- The edit puts `n` occurrences of `x` into a text without `x`. -/
def puts (x : List α) (n : ℕ) (e : Edit α) : Bool :=
  clear x e.before e.put e.after && meets x e.before e.put e.after == n

/-- The edit adds `n` occurrences of `x` to any text. -/
def adds (x : List α) (n : ℕ) (e : Edit α) : Bool :=
  clear x e.before e.cut e.after && clear x e.before e.put e.after &&
    meets x e.before e.put e.after == meets x e.before e.cut e.after + n

/-- The edit destroys `n` occurrences of `x` in any text. -/
def drops (x : List α) (n : ℕ) (e : Edit α) : Bool :=
  clear x e.before e.cut e.after && clear x e.before e.put e.after &&
    meets x e.before e.cut e.after == meets x e.before e.put e.after + n

theorem exists_apply {e : Edit α} {t : List α} (h : occ e.old t ≠ 0) :
    ∃ u v, t = u ++ (e.before ++ (e.cut ++ e.after)) ++ v ∧
      e.apply t = u ++ (e.before ++ (e.put ++ e.after)) ++ v :=
  exists_replaceFirst h e.new

theorem occ_le_apply {x : List α} {e : Edit α} {t : List α} (h : occ e.old t ≠ 0)
    (hk : e.keeps x = true) : occ x t ≤ occ x (e.apply t) := by
  obtain ⟨hfree, ht⟩ := Bool.and_eq_true_iff.mp hk
  obtain ⟨u, v, rfl, happly⟩ := exists_apply h
  rw [happly]
  rw [beq_iff_eq, startsIn_eq, started_nil_right] at ht
  exact occ_le_edit_clear hfree ht _ u v

theorem occ_apply_of_absent {x : List α} {n : ℕ} {e : Edit α} {t : List α} (h : occ e.old t ≠ 0)
    (hp : e.puts x n = true) (h0 : occ x t = 0) : occ x (e.apply t) = n := by
  obtain ⟨hfree, ht⟩ := Bool.and_eq_true_iff.mp hp
  obtain ⟨u, v, rfl, happly⟩ := exists_apply h
  rw [happly, occ_edit_of_clear hfree h0, beq_iff_eq.mp ht]

theorem occ_apply {x : List α} {n : ℕ} {e : Edit α} {t : List α} (h : occ e.old t ≠ 0)
    (ha : e.adds x n = true) : occ x (e.apply t) = occ x t + n := by
  obtain ⟨hfree, ht⟩ := Bool.and_eq_true_iff.mp ha
  obtain ⟨hd, hi⟩ := Bool.and_eq_true_iff.mp hfree
  obtain ⟨u, v, rfl, happly⟩ := exists_apply h
  rw [happly]
  have := occ_edit_clear hd hi u v
  rw [beq_iff_eq.mp ht] at this
  omega

theorem occ_apply_of_drops {x : List α} {n : ℕ} {e : Edit α} {t : List α} (h : occ e.old t ≠ 0)
    (hd : e.drops x n = true) : occ x (e.apply t) + n = occ x t := by
  obtain ⟨hfree, ht⟩ := Bool.and_eq_true_iff.mp hd
  obtain ⟨hc, hp⟩ := Bool.and_eq_true_iff.mp hfree
  obtain ⟨u, v, rfl, happly⟩ := exists_apply h
  rw [happly]
  have := occ_edit_clear hc hp u v
  rw [beq_iff_eq.mp ht] at this
  omega

/-! ### Lists of edits -/

/-- The text after a list of edits. -/
def applyAll (es : List (Edit α)) (t : List α) : List α := es.foldl (fun t e => e.apply t) t

/-- Every edit finds its text in its turn. -/
def Finds : List (Edit α) → List α → Prop
  | [], _ => True
  | e :: es, t => occ e.old t ≠ 0 ∧ Finds es (e.apply t)

/-- Every edit finds its text once in its turn. -/
def FindsOnce : List (Edit α) → List α → Prop
  | [], _ => True
  | e :: es, t => occ e.old t = 1 ∧ FindsOnce es (e.apply t)

theorem FindsOnce.finds {es : List (Edit α)} {t : List α} (h : FindsOnce es t) : Finds es t := by
  induction es generalizing t with
  | nil => trivial
  | cons e es ih => exact ⟨by rw [h.1]; exact Nat.one_ne_zero, ih h.2⟩

theorem applyAll_cons (e : Edit α) (es : List (Edit α)) (t : List α) :
    applyAll (e :: es) t = applyAll es (e.apply t) := rfl

theorem applyAll_append (es gs : List (Edit α)) (t : List α) :
    applyAll (es ++ gs) t = applyAll gs (applyAll es t) :=
  List.foldl_append

theorem finds_append {es gs : List (Edit α)} {t : List α} :
    Finds (es ++ gs) t ↔ Finds es t ∧ Finds gs (applyAll es t) := by
  induction es generalizing t with
  | nil => simp [Finds, applyAll]
  | cons e es ih =>
    rw [List.cons_append, Finds, Finds, ih, and_assoc]
    rfl

theorem findsOnce_append {es gs : List (Edit α)} {t : List α} :
    FindsOnce (es ++ gs) t ↔ FindsOnce es t ∧ FindsOnce gs (applyAll es t) := by
  induction es generalizing t with
  | nil => simp [FindsOnce, applyAll]
  | cons e es ih =>
    rw [List.cons_append, FindsOnce, FindsOnce, ih, and_assoc]
    rfl

theorem occ_le_applyAll {x : List α} {es : List (Edit α)} {t : List α} (h : Finds es t)
    (hk : es.all (keeps x) = true) : occ x t ≤ occ x (applyAll es t) := by
  induction es generalizing t with
  | nil => exact le_rfl
  | cons e es ih =>
    rw [List.all_cons, Bool.and_eq_true] at hk
    exact (occ_le_apply h.1 hk.1).trans (ih h.2 hk.2)

theorem occ_applyAll_of_absent {x : List α} {es : List (Edit α)} {t : List α} (h : Finds es t)
    (hp : es.all (puts x 0) = true) (h0 : occ x t = 0) : occ x (applyAll es t) = 0 := by
  induction es generalizing t with
  | nil => exact h0
  | cons e es ih =>
    rw [List.all_cons, Bool.and_eq_true] at hp
    exact ih h.2 hp.2 (occ_apply_of_absent h.1 hp.1 h0)

/-- How many occurrences of `x` the edit adds. -/
def gain (x : List α) (e : Edit α) : ℕ :=
  meets x e.before e.put e.after - meets x e.before e.cut e.after

/-- The edits together add `n` occurrences of `x` to any text. -/
def addsAll (x : List α) : ℕ → List (Edit α) → Bool
  | n, [] => n == 0
  | n, e :: es => e.adds x (e.gain x) && (e.gain x).ble n && addsAll x (n - e.gain x) es

theorem addsAll_append {x : List α} {m n : ℕ} {es gs : List (Edit α)} (h : addsAll x m es = true)
    (h' : addsAll x n gs = true) : addsAll x (m + n) (es ++ gs) = true := by
  induction es generalizing m with
  | nil =>
    rw [addsAll, beq_iff_eq] at h
    rwa [h, Nat.zero_add]
  | cons e es ih =>
    simp only [addsAll, List.cons_append, Bool.and_eq_true, Nat.ble_eq] at h ⊢
    obtain ⟨⟨hadds, hle⟩, hrest⟩ := h
    refine ⟨⟨hadds, by omega⟩, ?_⟩
    rw [show m + n - gain x e = m - gain x e + n by omega]
    exact ih hrest

theorem occ_applyAll {x : List α} {n : ℕ} {es : List (Edit α)} {t : List α} (h : Finds es t)
    (ha : addsAll x n es = true) : occ x (applyAll es t) = occ x t + n := by
  induction es generalizing n t with
  | nil =>
    rw [addsAll, beq_iff_eq] at ha
    rw [ha]
    rfl
  | cons e es ih =>
    simp only [addsAll, Bool.and_eq_true, Nat.ble_eq] at ha
    obtain ⟨⟨hadds, hle⟩, hrest⟩ := ha
    have hstep := occ_apply h.1 hadds
    have happly : applyAll (e :: es) t = applyAll es (e.apply t) := rfl
    rw [happly, ih h.2 hrest, hstep]
    omega

theorem occ_applyAll_of_adds {x : List α} {es : List (Edit α)} {t : List α} (h : Finds es t)
    (ha : es.all (adds x 0) = true) : occ x (applyAll es t) = occ x t := by
  induction es generalizing t with
  | nil => rfl
  | cons e es ih =>
    rw [List.all_cons, Bool.and_eq_true] at ha
    exact (ih h.2 ha.2).trans (occ_apply h.1 ha.1)

/-- What one edit of a list puts there and the others leave alone, in a text that lacked it. -/
theorem occ_applyAll_of_put {x : List α} {n : ℕ} {es gs : List (Edit α)} {e : Edit α} {t : List α}
    (h : Finds (es ++ e :: gs) t) (hes : es.all (puts x 0) = true) (he : e.puts x n = true)
    (hgs : gs.all (adds x 0) = true) (h0 : occ x t = 0) :
    occ x (applyAll (es ++ e :: gs) t) = n := by
  obtain ⟨hfinds, hfind, hrest⟩ := finds_append.mp h
  have hput : occ x (e.apply (applyAll es t)) = n :=
    occ_apply_of_absent hfind he (occ_applyAll_of_absent hfinds hes h0)
  rw [applyAll_append]
  calc occ x (applyAll gs (e.apply (applyAll es t)))
      = occ x (e.apply (applyAll es t)) := occ_applyAll_of_adds hrest hgs
    _ = n := hput

/-- Every edit puts its new text once; the edits before it do not put it, those behind it leave its
occurrences alone. -/
def putsOnce (es : List (Edit α)) : List (Edit α) → Bool
  | [] => true
  | e :: gs =>
    es.all (puts e.new 0) && e.puts e.new 1 && gs.all (adds e.new 0) && putsOnce (es ++ [e]) gs

/-- What each edit of a list puts is there once at the end, if it was not there before. -/
theorem occ_new_applyAll {es gs : List (Edit α)} {t : List α} (h : Finds (es ++ gs) t)
    (hp : putsOnce es gs = true) (h0 : ∀ e ∈ gs, occ e.new t = 0) :
    ∀ e ∈ gs, occ e.new (applyAll (es ++ gs) t) = 1 := by
  induction gs generalizing es with
  | nil => exact fun e he => absurd he List.not_mem_nil
  | cons g gs ih =>
    simp only [putsOnce, Bool.and_eq_true] at hp
    obtain ⟨⟨⟨hes, hg⟩, hgs⟩, hrest⟩ := hp
    intro e he
    rcases List.mem_cons.mp he with rfl | he
    · exact occ_applyAll_of_put h hes hg hgs (h0 e List.mem_cons_self)
    · have hassoc : es ++ g :: gs = es ++ [g] ++ gs := by simp
      rw [hassoc] at h ⊢
      exact ih h hrest (fun e he => h0 e (List.mem_cons_of_mem _ he)) e he

/-! ### Patches -/

/-- The edits find their texts in `t`, one after another, and make `t'` of it. -/
def Patches (es : List (Edit α)) (t t' : List α) : Prop := Finds es t ∧ applyAll es t = t'

/-- The same where every text is found once. -/
def PatchesOnce (es : List (Edit α)) (t t' : List α) : Prop := FindsOnce es t ∧ applyAll es t = t'

theorem PatchesOnce.patches {es : List (Edit α)} {t t' : List α} (h : PatchesOnce es t t') :
    Patches es t t' :=
  ⟨h.1.finds, h.2⟩

theorem PatchesOnce.nil (t : List α) : PatchesOnce [] t t := ⟨trivial, rfl⟩

theorem PatchesOnce.append {es gs : List (Edit α)} {t t' t'' : List α} (h : PatchesOnce es t t')
    (h' : PatchesOnce gs t' t'') : PatchesOnce (es ++ gs) t t'' := by
  obtain ⟨hes, rfl⟩ := h
  obtain ⟨hgs, rfl⟩ := h'
  exact ⟨findsOnce_append.mpr ⟨hes, hgs⟩, applyAll_append es gs t⟩

theorem Patches.nil (t : List α) : Patches [] t t := ⟨trivial, rfl⟩

theorem Patches.append {es gs : List (Edit α)} {t t' t'' : List α} (h : Patches es t t')
    (h' : Patches gs t' t'') : Patches (es ++ gs) t t'' := by
  obtain ⟨hes, rfl⟩ := h
  obtain ⟨hgs, rfl⟩ := h'
  exact ⟨finds_append.mpr ⟨hes, hgs⟩, applyAll_append es gs t⟩

theorem Patches.occ_eq {es : List (Edit α)} {x t t' : List α} {n : ℕ} (h : Patches es t t')
    (ha : addsAll x n es = true) : occ x t' = occ x t + n := by
  obtain ⟨hfinds, rfl⟩ := h
  exact occ_applyAll hfinds ha

theorem Patches.occ_le {es : List (Edit α)} {x t t' : List α} (h : Patches es t t')
    (hk : es.all (keeps x) = true) : occ x t ≤ occ x t' := by
  obtain ⟨hfinds, rfl⟩ := h
  exact occ_le_applyAll hfinds hk

/-- A text that no edit destroys stays. -/
theorem Patches.infix_of_keeps {es : List (Edit α)} {x t t' : List α} (h : Patches es t t')
    (hk : es.all (keeps x) = true) (ht : x <:+: t) : x <:+: t' := by
  rcases eq_or_ne x [] with rfl | hx
  · exact List.nil_infix
  rw [← occ_pos_iff hx] at ht ⊢
  exact ht.trans_le (h.occ_le hk)

/-- A text that no edit destroys or puts. -/
theorem Patches.infix_iff {es : List (Edit α)} {x t t' : List α} (h : Patches es t t')
    (ha : es.all (adds x 0) = true) : x <:+: t' ↔ x <:+: t := by
  rcases eq_or_ne x [] with rfl | hx
  · exact iff_of_true List.nil_infix List.nil_infix
  obtain ⟨hfinds, rfl⟩ := h
  rw [← occ_pos_iff hx, ← occ_pos_iff hx, occ_applyAll_of_adds hfinds ha]

theorem Patches.new_within_single {e : Edit α} {t t' : List α} (h : Patches [e] t t') :
    e.new <:+: t' := by
  obtain ⟨hfinds, rfl⟩ := h
  obtain ⟨u, v, -, happly⟩ := exists_apply hfinds.1
  exact ⟨u, v, happly.symm⟩

/-- What an edit of a list puts and those behind it keep. -/
theorem Patches.occ_of_new {es gs : List (Edit α)} {e : Edit α} {x t t' : List α}
    (h : Patches (es ++ e :: gs) t t') (hnew : occ x e.new ≠ 0) (hkept : gs.all (keeps x) = true) :
    occ x t' ≠ 0 := by
  obtain ⟨hfinds, rfl⟩ := h
  obtain ⟨-, hfind, hrest⟩ := finds_append.mp hfinds
  obtain ⟨u, v, -, happly⟩ := exists_apply hfind
  rw [applyAll_append, applyAll_cons]
  have hput : occ x e.new ≤ occ x (e.apply (applyAll es t)) := by
    rw [happly]
    exact occ_le_frame x u e.new v
  have hle := occ_le_applyAll hrest hkept
  omega

omit [DecidableEq α] in
theorem all_optional {c : Bool} {e : Edit α} {p : Edit α → Bool} (h : p e = true) :
    (if c then [] else [e]).all p = true := by
  cases c with
  | true => rfl
  | false => simpa using h

/-- What an edit puts that is left out under a condition. -/
theorem Patches.infix_optional {c : Bool} {e : Edit α} {x t t' : List α}
    (h : Patches (if c then [] else [e]) t t') (hnew : x <:+: e.new) :
    x <:+: t' ↔ (c = true → x <:+: t) := by
  cases c with
  | true =>
    obtain ⟨-, rfl⟩ := h
    exact ⟨fun hx _ => hx, fun hx => hx rfl⟩
  | false => exact iff_of_true (hnew.trans (new_within_single h)) (by simp)

/-- What each edit puts, the later ones keep. -/
def keptInTurn : List (Edit α) → Bool
  | [] => true
  | e :: es => es.all (keeps e.new) && keptInTurn es

/-- What each edit of a list has put there is there at the end. -/
theorem Patches.new_within {es : List (Edit α)} {t t' : List α} (h : Patches es t t')
    (hk : keptInTurn es = true) : ∀ e ∈ es, e.new <:+: t' := by
  induction es generalizing t with
  | nil => exact fun e he => absurd he List.not_mem_nil
  | cons a es ih =>
    obtain ⟨⟨hfind, hfinds⟩, rfl⟩ := h
    rw [keptInTurn, Bool.and_eq_true] at hk
    have hrest : Patches es (a.apply t) (applyAll (a :: es) t) := ⟨hfinds, rfl⟩
    intro e he
    rcases List.mem_cons.mp he with rfl | he
    · have hhead : Patches [e] t (e.apply t) := ⟨⟨hfind, trivial⟩, rfl⟩
      exact hrest.infix_of_keeps hk.1 hhead.new_within_single
    · exact ih hrest hk.2 e he

/-! ### Changing places -/

/-- Two texts that never overlap, nor lie in one another. -/
def apart (x y : List α) : Bool := clear x [] y [] && meets x [] y [] == 0

theorem occ_of_apart {x y : List α} (h : apart x y = true) (u v : List α) :
    occ x (u ++ y ++ v) = occ x u + occ x v := by
  obtain ⟨hfree, ht⟩ := Bool.and_eq_true_iff.mp h
  have := occ_frame_clear hfree u v
  simp only [List.nil_append, List.append_nil, List.reverse_nil, beq_iff_eq.mp ht,
    started_nil_right,
    occ_reverse] at this
  omega

/-- The edit replaces a text that occurs once where it occurs. -/
theorem apply_of_once {e : Edit α} (hne : e.old ≠ []) {u v : List α}
    (h : occ e.old (u ++ e.old ++ v) = 1) :
    e.apply (u ++ e.old ++ v) = u ++ e.new ++ v :=
  replaceFirst_of_once hne h e.new

/-- Two edits whose texts occur once, apart from each other, may change places. -/
theorem apply_comm {e g : Edit α} {t : List α} (hne : e.old ≠ []) (hng : g.old ≠ [])
    (hapart : apart g.old e.old = true) (he : occ e.old t = 1) (hg : occ g.old t = 1)
    (heg : occ e.old (g.apply t) = 1) (hge : occ g.old (e.apply t) = 1) :
    g.apply (e.apply t) = e.apply (g.apply t) := by
  obtain ⟨u, v, rfl⟩ := (occ_pos_iff hne).mp (by rw [he]; exact Nat.one_pos)
  have hsum := occ_of_apart hapart u v
  rw [apply_of_once hne he] at hge ⊢
  -- the other text stands before or behind
  rcases Nat.eq_zero_or_pos (occ g.old u) with hu | hu
  · obtain ⟨a, b, rfl⟩ := (occ_pos_iff hng).mp (show 0 < occ g.old v by omega)
    have h₁ : u ++ e.old ++ (a ++ g.old ++ b) = (u ++ e.old ++ a) ++ g.old ++ b := by
      simp only [List.append_assoc]
    have h₂ : u ++ e.new ++ (a ++ g.old ++ b) = (u ++ e.new ++ a) ++ g.old ++ b := by
      simp only [List.append_assoc]
    have h₃ : (u ++ e.old ++ a) ++ g.new ++ b = u ++ e.old ++ (a ++ g.new ++ b) := by
      simp only [List.append_assoc]
    rw [h₂] at hge ⊢
    rw [h₁] at hg heg ⊢
    rw [apply_of_once hng hg, h₃] at heg ⊢
    rw [apply_of_once hng hge, apply_of_once hne heg]
    simp only [List.append_assoc]
  · obtain ⟨a, b, rfl⟩ := (occ_pos_iff hng).mp hu
    have h₁ : (a ++ g.old ++ b) ++ e.old ++ v = a ++ g.old ++ (b ++ e.old ++ v) := by
      simp only [List.append_assoc]
    have h₂ : (a ++ g.old ++ b) ++ e.new ++ v = a ++ g.old ++ (b ++ e.new ++ v) := by
      simp only [List.append_assoc]
    have h₃ : a ++ g.new ++ (b ++ e.old ++ v) = (a ++ g.new ++ b) ++ e.old ++ v := by
      simp only [List.append_assoc]
    rw [h₂] at hge ⊢
    rw [h₁] at hg heg ⊢
    rw [apply_of_once hng hg, h₃] at heg ⊢
    rw [apply_of_once hng hge, apply_of_once hne heg]
    simp only [List.append_assoc]

/-- On the texts of a kind, the edit leaves the occurrences of `x`. -/
def Leaves (Ok : List α → Prop) (e : Edit α) (x : List α) : Prop :=
  ∀ t, Ok t → occ e.old t ≠ 0 → occ x (e.apply t) = occ x t

/-- The edit stays among the texts of a kind. -/
def Stays (Ok : List α → Prop) (e : Edit α) : Prop := ∀ t, Ok t → occ e.old t ≠ 0 → Ok (e.apply t)

/-- On the texts of a kind, two edits that do not meddle with each other. -/
structure Independent (Ok : List α → Prop) (e g : Edit α) : Prop where
  apart : apart g.old e.old = true
  left : Leaves Ok e g.old
  right : Leaves Ok g e.old

theorem Leaves.of_adds {Ok : List α → Prop} {e : Edit α} {x : List α} (h : e.adds x 0 = true) :
    Leaves Ok e x :=
  fun _ _ he => occ_apply he h

/-- What no edit of a list meddles with. -/
theorem Leaves.applyAll {Ok : List α → Prop} {es : List (Edit α)} {x : List α}
    (h : ∀ e ∈ es, Leaves Ok e x) (hstays : ∀ e ∈ es, Stays Ok e) {t : List α} (ht : Ok t)
    (hfinds : Finds es t) : occ x (applyAll es t) = occ x t ∧ Ok (applyAll es t) := by
  induction es generalizing t with
  | nil => exact ⟨rfl, ht⟩
  | cons e es ih =>
    obtain ⟨hocc, hok⟩ := ih (fun e he => h e (List.mem_cons_of_mem _ he))
      (fun e he => hstays e (List.mem_cons_of_mem _ he))
      (hstays e List.mem_cons_self t ht hfinds.1) hfinds.2
    exact ⟨hocc.trans (h e List.mem_cons_self t ht hfinds.1), hok⟩

/-- Edits whose texts occur once find them in turn if none meddles with those behind it. -/
theorem findsOnce_of_leaves {Ok : List α → Prop} {es : List (Edit α)}
    (h : es.Pairwise fun e g => Leaves Ok e g.old) (hstays : ∀ e ∈ es, Stays Ok e) {t : List α}
    (ht : Ok t) (hone : ∀ e ∈ es, occ e.old t = 1) : FindsOnce es t := by
  induction es generalizing t with
  | nil => trivial
  | cons e es ih =>
    obtain ⟨he, hes⟩ := List.pairwise_cons.mp h
    have hfind := hone e List.mem_cons_self
    have hne : occ e.old t ≠ 0 := by omega
    refine ⟨hfind, ih hes (fun e he => hstays e (List.mem_cons_of_mem _ he))
      (hstays e List.mem_cons_self t ht hne) fun g hg => ?_⟩
    rw [he g hg t ht hne, hone g (List.mem_cons_of_mem _ hg)]

/-- An edit may change places with a list of edits that do not meddle with it. -/
theorem applyAll_apply {Ok : List α → Prop} {e : Edit α} {gs : List (Edit α)} {t : List α}
    (hne : e.old ≠ []) (hng : ∀ g ∈ gs, g.old ≠ []) (hstays : ∀ g ∈ gs, Stays Ok g)
    (hind : ∀ g ∈ gs, Independent Ok e g) (ht : Ok t) (he : occ e.old t = 1)
    (hgs : FindsOnce gs (e.apply t)) :
    FindsOnce gs t ∧ occ e.old (applyAll gs t) = 1 ∧
      applyAll gs (e.apply t) = e.apply (applyAll gs t) := by
  induction gs generalizing t with
  | nil => exact ⟨trivial, he, rfl⟩
  | cons g gs ih =>
    have hi := hind g List.mem_cons_self
    have hg : occ g.old t = 1 := by rw [← hgs.1, hi.left t ht (by omega)]
    have he' : occ e.old (g.apply t) = 1 := by rw [hi.right t ht (by omega), he]
    have hcomm := apply_comm hne (hng g List.mem_cons_self) hi.apart he hg he' hgs.1
    have hrest := hgs.2
    rw [hcomm] at hrest
    obtain ⟨hfinds, hocc, happly⟩ := ih (fun g hg => hng g (List.mem_cons_of_mem _ hg))
      (fun g hg => hstays g (List.mem_cons_of_mem _ hg))
      (fun g hg => hind g (List.mem_cons_of_mem _ hg))
      (hstays g List.mem_cons_self t ht (by omega)) he' hrest
    refine ⟨⟨hg, hfinds⟩, hocc, ?_⟩
    rw [applyAll, List.foldl_cons, hcomm]
    exact happly

/-- Lists of edits that do not meddle with each other may change places. -/
theorem applyAll_comm {Ok : List α → Prop} {es gs : List (Edit α)} {t : List α}
    (hne : ∀ e ∈ es, e.old ≠ []) (hng : ∀ g ∈ gs, g.old ≠ []) (hes : ∀ e ∈ es, Stays Ok e)
    (hgs : ∀ g ∈ gs, Stays Ok g) (hind : ∀ e ∈ es, ∀ g ∈ gs, Independent Ok e g) (ht : Ok t)
    (h : FindsOnce es t) (h' : FindsOnce gs (applyAll es t)) :
    FindsOnce gs t ∧ applyAll gs (applyAll es t) = applyAll es (applyAll gs t) := by
  induction es generalizing t with
  | nil => exact ⟨h', rfl⟩
  | cons e es ih =>
    have he : occ e.old t ≠ 0 := by
      have := h.1
      omega
    obtain ⟨hfinds, hcomm⟩ := ih (fun e he => hne e (List.mem_cons_of_mem _ he))
      (fun e he => hes e (List.mem_cons_of_mem _ he))
      (fun e he => hind e (List.mem_cons_of_mem _ he)) (hes e List.mem_cons_self t ht he) h.2 h'
    obtain ⟨hfinds', -, hcomm'⟩ := applyAll_apply (hne e List.mem_cons_self) hng hgs
      (hind e List.mem_cons_self) ht h.1 hfinds
    exact ⟨hfinds', hcomm.trans (congrArg (applyAll es) hcomm')⟩

end Edit

end Occurrences
