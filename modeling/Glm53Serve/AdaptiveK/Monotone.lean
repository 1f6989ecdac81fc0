import Glm53Serve.AdaptiveK.Verify
import Glm53Serve.Lib.Average

/-!
# More acceptance, longer drafts

In exact arithmetic the policy is monotone: a request that has more drafts accepted gets no
shorter drafts.

## The model

`Policy.observe` and `Policy.choose` at the rationals. `observe_eq` writes an observation as
one move of an exponential average; two policies of one request are compared by `Below`.

## What is proved

* `Below.observe`, `Below.observeAll` — paired observations keep the averages in order.
* `candidate_mono` — the candidate grows with the bound it is chosen under.
* `choose_mono` — the draft length grows with what was accepted, and with what is offered.
-/

namespace Glm53Serve.AdaptiveK.Policy

open Average

/-! ### One observation -/

/-- What an observation measures: the accepted drafts, or a full score where all were
accepted and the policy saturates. -/
def measured (p : Policy ℚ) (numDraft numAccepted : ℤ) : ℚ :=
  if numDraft ≤ numAccepted ∧ p.saturate ≠ ['n'] then ((max p.kMax numDraft : ℤ) : ℚ)
  else (numAccepted : ℚ)

/-- The average and the number of observations after one that measures `x`. -/
def averaged (p : Policy ℚ) (x : ℚ) : Option (ℚ × ℚ) → ℚ × ℚ
  | none => (move p.alpha x p.kMax, 1)
  | some (ema, observed) => (move p.alpha x ema, observed + 1)

theorem observe_off {p : Policy ℚ} {reqId : ReqId} {numDraft numAccepted : ℤ}
    (h : ¬ (p.enabled = true ∧ 0 < numDraft)) : p.observe reqId numDraft numAccepted = p := by
  rw [observe, if_pos]
  cases he : p.enabled <;> simp_all

/-- The policy with other averages. -/
def withState (p : Policy ℚ) (state : ReqId → Option (ℚ × ℚ)) : Policy ℚ :=
  { p with state := state }

@[simp] theorem withState_state (p : Policy ℚ) (state : ReqId → Option (ℚ × ℚ)) :
    (p.withState state).state = state := rfl

/-- An observation of a policy that is on. -/
theorem observe_eq {p : Policy ℚ} {reqId : ReqId} {numDraft numAccepted : ℤ}
    (h : p.enabled = true ∧ 0 < numDraft) :
    p.observe reqId numDraft numAccepted =
      p.withState (Function.update p.state reqId
        (some (p.averaged (p.measured numDraft numAccepted) (p.state reqId)))) := by
  rw [observe, if_neg (by simp [h.1, h.2])]
  cases hs : p.state reqId with
  | none => simp [averaged, move, measured, withState]
  | some st => simp [averaged, move, measured, withState]

/-- Of two observations of equally many drafts the one with more accepted measures more. -/
theorem measured_mono (p : Policy ℚ) {numDraft a a' : ℤ} (h : a ≤ a') (h' : a' ≤ numDraft) :
    p.measured numDraft a ≤ p.measured numDraft a' := by
  simp only [measured]
  split_ifs with hf hf'
  · exact le_rfl
  · exact absurd ⟨hf.1.trans h, hf.2⟩ hf'
  · exact_mod_cast (h.trans h').trans (le_max_right _ _)
  · exact_mod_cast h

/-! ### Two runs side by side -/

/-- `q` is `p` but for the averages, and its average of the request, over equally many
observations, is no lower. -/
structure Below (reqId : ReqId) (p q : Policy ℚ) : Prop where
  settings : q = p.withState q.state
  state : (p.state reqId = none ∧ q.state reqId = none) ∨
    ∃ e e' n, p.state reqId = some (e, n) ∧ q.state reqId = some (e', n) ∧ e ≤ e'

theorem Below.refl (reqId : ReqId) (p : Policy ℚ) : Below reqId p p := by
  refine ⟨rfl, ?_⟩
  cases h : p.state reqId with
  | none => exact .inl ⟨rfl, rfl⟩
  | some st => exact .inr ⟨st.1, st.1, st.2, rfl, rfl, le_rfl⟩

theorem averaged_mono {p : Policy ℚ} (h₀ : 0 ≤ p.alpha) (h₁ : p.alpha ≤ 1) {x x' : ℚ}
    (hx : x ≤ x') {s s' : Option (ℚ × ℚ)}
    (hs : (s = none ∧ s' = none) ∨ ∃ e e' n, s = some (e, n) ∧ s' = some (e', n) ∧ e ≤ e') :
    (p.averaged x s).1 ≤ (p.averaged x' s').1 ∧ (p.averaged x s).2 = (p.averaged x' s').2 := by
  obtain ⟨rfl, rfl⟩ | ⟨e, e', n, rfl, rfl, he⟩ := hs
  · exact ⟨move_mono h₀ h₁ hx le_rfl, rfl⟩
  · exact ⟨move_mono h₀ h₁ hx he, rfl⟩

/-- One observation each. -/
theorem Below.observe {reqId : ReqId} {p q : Policy ℚ} (h : Below reqId p q) (h₀ : 0 ≤ p.alpha)
    (h₁ : p.alpha ≤ 1) {numDraft a a' : ℤ} (ha : a ≤ a') (ha' : a' ≤ numDraft) :
    Below reqId (p.observe reqId numDraft a) (q.observe reqId numDraft a') := by
  obtain ⟨hset, hst⟩ := h
  generalize q.state = st at hset hst
  subst hset
  by_cases hon : p.enabled = true ∧ 0 < numDraft
  · rw [observe_eq hon, observe_eq (p := p.withState st) hon]
    obtain ⟨hle, heq⟩ := averaged_mono h₀ h₁ (p.measured_mono ha ha') hst
    refine ⟨rfl, .inr ⟨_, _, (p.averaged (p.measured numDraft a) (p.state reqId)).2, ?_, ?_, hle⟩⟩
    · rw [withState_state, Function.update_self]
    · rw [withState_state, Function.update_self, heq]
      rfl
  · rw [observe_off hon, observe_off (p := p.withState st) hon]
    exact ⟨rfl, hst⟩

/-- An observation of a request: the drafts and how many were accepted. -/
structure Observation where
  numDraft : ℤ
  numAccepted : ℤ

/-- The observations of one request, one after the other. -/
def observeAll (p : Policy ℚ) (reqId : ReqId) (obs : List Observation) : Policy ℚ :=
  Run.run (fun p o => p.observe reqId o.numDraft o.numAccepted) p obs

/-- The two observations are of equally many drafts, and the second has as many accepted or
more. -/
def Observation.Better (o o' : Observation) : Prop :=
  o.numDraft = o'.numDraft ∧ o.numAccepted ≤ o'.numAccepted ∧ o'.numAccepted ≤ o'.numDraft

theorem Below.observeAll {reqId : ReqId} {obs obs' : List Observation}
    (hobs : List.Forall₂ Observation.Better obs obs') :
    ∀ {p q : Policy ℚ}, Below reqId p q → 0 ≤ p.alpha → p.alpha ≤ 1 →
      Below reqId (p.observeAll reqId obs) (q.observeAll reqId obs') := by
  induction hobs with
  | nil => exact fun h _ _ => h
  | @cons o o' obs obs' ho _ ih =>
    intro p q h h₀ h₁
    obtain ⟨d, a⟩ := o
    obtain ⟨d', a'⟩ := o'
    obtain ⟨rfl, ha, ha'⟩ := ho
    have halpha : (p.observe reqId d a).alpha = p.alpha := by
      by_cases hon : p.enabled = true ∧ 0 < d
      · rw [observe_eq hon, withState]
      · rw [observe_off hon]
    exact ih (h.observe h₀ h₁ ha ha') (halpha ▸ h₀) (halpha ▸ h₁)

/-! ### The choice -/

section
variable {F : Type} {p : Policy F}

theorem candidate_eq_none {target k : ℤ} : p.candidate target k = none ↔ p.kSet = [] := by
  constructor
  · intro h
    by_contra hne
    obtain ⟨n, hn⟩ := candidate_isSome hne target k
    simp [hn] at h
  · intro h
    simp [candidate, h]

/-- A wider bound gives no smaller candidate, also where none fits and the least is taken. -/
theorem candidate_mono {target target' k k' m n : ℤ} (hle : min target k ≤ min target' k')
    (hm : p.candidate target k = some m) (hn : p.candidate target' k' = some n) : m ≤ n := by
  have hmem := (candidate_spec hn).1
  simp only [candidate] at hm hn
  split_ifs at hm with hc
  · exact (min?_spec hm).2 n hmem
  · have hin := List.max?_mem hm
    rw [List.mem_filter, decide_eq_true_eq] at hin
    have hin' : m ∈ p.kSet.filter (· ≤ min target' k') := by
      rw [List.mem_filter, decide_eq_true_eq]
      exact ⟨hin.1, hin.2.trans hle⟩
    rw [if_neg (List.ne_nil_of_mem hin')] at hn
    exact (List.max?_eq_some_iff.1 hn).2 m hin'

end

/-- What `choose` returns for a candidate. -/
def chosen (k : ℤ) : Option ℤ → Except PyError (Option ℤ)
  | none => .error .emptySet
  | some n => .ok (some (max 1 (min n k)))

/-- In exact arithmetic the rounding raises nothing. -/
theorem choose_exact {p : Policy ℚ} {reqId : ReqId} {k : ℤ} {structured : Bool}
    (h : p.Observed reqId k structured) :
    ∃ ema observed, p.state reqId = some (ema, observed) ∧
      p.choose reqId k structured = chosen k (p.candidate ⌈ema + p.margin⌉ k) := by
  obtain ⟨ema, observed, hs, hc⟩ := choose_of_observed h
  refine ⟨ema, observed, hs, hc.trans ?_⟩
  change (match p.candidate ⌈ema + p.margin⌉ k with
    | none => Except.error PyError.emptySet
    | some n => Except.ok (some (max 1 (min n k)))) = _
  cases p.candidate ⌈ema + p.margin⌉ k <;> rfl

/-- Two choices for a request: both raise the same, both stay at full length, or both are
lengths, the second no shorter. -/
inductive NoLonger : Except PyError (Option ℤ) → Except PyError (Option ℤ) → Prop
  | error (e : PyError) : NoLonger (.error e) (.error e)
  | full : NoLonger (.ok none) (.ok none)
  | length {m n : ℤ} (h : m ≤ n) : NoLonger (.ok (some m)) (.ok (some n))

theorem Below.observed_iff {reqId : ReqId} {p q : Policy ℚ} (h : Below reqId p q) (k : ℤ)
    (structured : Bool) : p.Observed reqId k structured ↔ q.Observed reqId k structured := by
  obtain ⟨hset, hst⟩ := h
  generalize q.state = st at hset hst
  subst hset
  have hiff : (∃ e n, p.state reqId = some (e, n) ∧ ¬ n < (p.minSteps : ℚ)) ↔
      ∃ e n, st reqId = some (e, n) ∧ ¬ n < (p.minSteps : ℚ) := by
    obtain ⟨hp, hq⟩ | ⟨e, e', n, hp, hq, -⟩ := hst
    · simp [hp, hq]
    · simp [hp, hq]
  exact and_congr_right' (and_congr_right' (and_congr_right' hiff))

/-- The choice after the lower average is no longer. -/
theorem Below.choose {reqId : ReqId} {p q : Policy ℚ} (h : Below reqId p q) (k : ℤ)
    (structured : Bool) :
    NoLonger (p.choose reqId k structured) (q.choose reqId k structured) := by
  by_cases ho : p.Observed reqId k structured
  · obtain ⟨e, n, hs, hc⟩ := choose_exact ho
    obtain ⟨e', n', hs', hc'⟩ := choose_exact ((h.observed_iff k structured).1 ho)
    obtain ⟨hp, -⟩ | ⟨e₁, e₁', n₁, hp, hq, hle⟩ := h.state
    · simp [hp] at hs
    rw [hp, Option.some.injEq, Prod.mk.injEq] at hs
    rw [hq, Option.some.injEq, Prod.mk.injEq] at hs'
    rw [hs.1, hs'.1] at hle
    have hmargin : q.margin = p.margin := by rw [h.settings]; rfl
    have hkSet : q.kSet = p.kSet := by rw [h.settings]; rfl
    have hceil : ⌈e + p.margin⌉ ≤ ⌈e' + p.margin⌉ := Int.ceil_mono (by linarith)
    have hcand : ∀ t, q.candidate t k = p.candidate t k := fun t => by
      simp only [candidate, hkSet]
    rw [hc, hc', hmargin, hcand]
    cases hm : p.candidate ⌈e + p.margin⌉ k with
    | none =>
      rw [candidate_eq_none.2 (candidate_eq_none.1 hm)]
      exact .error _
    | some m =>
      cases hn : p.candidate ⌈e' + p.margin⌉ k with
      | none =>
        rw [candidate_eq_none.2 (candidate_eq_none.1 hn)] at hm
        cases hm
      | some n =>
        have hmn := candidate_mono (min_le_min_right k hceil) hm hn
        exact .length (max_le_max_left 1 (min_le_min_right k hmn))
  · rw [choose_of_not_observed ho, choose_of_not_observed (mt (h.observed_iff k structured).2 ho)]
    exact .full

/-- The length that a choice leaves a request offered `k` drafts. -/
def lengthOf (k : ℤ) (choice : Option ℤ) : ℤ := choice.getD k

/-- The choice grows with the drafts that are offered. -/
theorem choose_mono_offered (p : Policy ℚ) (reqId : ReqId) (structured : Bool) {k k' : ℤ}
    (hk : k ≤ k') {c c' : Option ℤ} (h : p.choose reqId k structured = .ok c)
    (h' : p.choose reqId k' structured = .ok c') : lengthOf k c ≤ lengthOf k' c' := by
  cases c' with
  | none =>
    cases c with
    | none => exact hk
    | some v =>
      -- the request is observed, so it is chosen for at `k'` too
      obtain ⟨he, hs, hpos, ho⟩ := (choose_ok_iff_observed h).1 (Option.some_ne_none v)
      exact absurd rfl ((choose_ok_iff_observed h').2 ⟨he, hs, hpos.trans_le hk, ho⟩)
  | some v' =>
    have ho' := (choose_ok_iff_observed h').1 (Option.some_ne_none v')
    cases c with
    | none =>
      obtain ⟨_, n, -, rfl⟩ := choose_candidate h'
      have hneg : k ≤ 0 := by
        by_contra hpos
        exact (choose_ok_iff_observed h).2 ⟨ho'.1, ho'.2.1, by omega, ho'.2.2.2⟩ rfl
      change k ≤ max 1 (min n k')
      omega
    | some v =>
      obtain ⟨t, m, hm, rfl, ht⟩ := choose_target h
      obtain ⟨t', n, hn, rfl, ht'⟩ := choose_target h'
      obtain rfl : t = t' := Option.some.inj (ht.symm.trans ht')
      have hmn := candidate_mono (min_le_min_left t hk) hm hn
      exact max_le_max_left 1 (min_le_min hmn hk)

/-- Where one run of observations has at most as many drafts accepted, step by step, as
another, its choices are no longer; and every choice grows with the drafts that are offered. -/
theorem choose_mono (p : Policy ℚ) (h₀ : 0 ≤ p.alpha) (h₁ : p.alpha ≤ 1) (reqId : ReqId)
    {obs obs' : List Observation} (hobs : List.Forall₂ Observation.Better obs obs') :
    (∀ k structured, NoLonger ((p.observeAll reqId obs).choose reqId k structured)
        ((p.observeAll reqId obs').choose reqId k structured)) ∧
      ∀ structured k k', k ≤ k' → ∀ c c',
        (p.observeAll reqId obs).choose reqId k structured = .ok c →
        (p.observeAll reqId obs).choose reqId k' structured = .ok c' →
          lengthOf k c ≤ lengthOf k' c' := by
  refine ⟨fun k structured => ?_, fun structured k k' hk c c' hc hc' => ?_⟩
  · exact (Below.observeAll hobs (.refl reqId p) h₀ h₁).choose k structured
  · exact choose_mono_offered _ reqId structured hk hc hc'

/-- Four accepted of seven, then all seven, against three and five. -/
theorem choose_mono_seven :
    (∀ k structured,
        NoLonger
          ((defaultPolicy.observeAll ['r'] [⟨7, 3⟩, ⟨7, 5⟩]).choose ['r'] k structured)
          ((defaultPolicy.observeAll ['r'] [⟨7, 4⟩, ⟨7, 7⟩]).choose ['r'] k structured)) ∧
      ∀ structured k k', k ≤ k' → ∀ c c',
        (defaultPolicy.observeAll ['r'] [⟨7, 3⟩, ⟨7, 5⟩]).choose ['r'] k structured = .ok c →
        (defaultPolicy.observeAll ['r'] [⟨7, 3⟩, ⟨7, 5⟩]).choose ['r'] k' structured = .ok c' →
          lengthOf k c ≤ lengthOf k' c' :=
  choose_mono defaultPolicy (by decide +kernel) (by decide +kernel) ['r']
    (.cons ⟨rfl, by decide, by decide⟩ (.cons ⟨rfl, by decide, by decide⟩ .nil))

end Glm53Serve.AdaptiveK.Policy
