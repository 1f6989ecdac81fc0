import Mathlib
import Glm53Serve.Lib.Matcher

/-!
# The grammar of a request

`overlay/patch_xgrammar_termination.py` changes how the grammar backend feeds its matcher:
tokens after the end of the grammar are ignored, and drafts made before the end of the
reasoning are validated before they are fed. The manager feeds the drafts of a step and
then takes them back.

## The model

The methods of the patched `XgrammarGrammar` over any matcher, and the patched loop of the
manager. The log message and the bitmask are left out.

## What is proved

* `validateTokens_grammar`, `acceptTokens_advances` — what the two consume.
* `Reached.inv` — after every sequence of calls, the flag and the counter are those of the
  matcher, which was never fed after the end.
* `managerLoop_rollback` — taking back the advancements undoes the loop of the manager.
* `bookkeeping` — these, from a new grammar on.
-/

namespace Glm53Serve.Grammar

open Matcher

universe u v

variable {M : Type u} {τ : Type v}

/-! ### The adapter -/

/-- `XgrammarGrammar`. -/
structure XgrammarGrammar (M : Type u) where
  matcher : M
  numProcessedTokens : ℤ
  /-- `_is_terminated`. -/
  isTerminated : Bool

variable (ops : Matcher M τ)

/-- The loop of `accept_tokens`. -/
def acceptLoop (g : XgrammarGrammar M) : List τ → Bool × XgrammarGrammar M
  | [] => (true, g)
  | token :: tokens =>
    match ops.accept g.matcher token with
    | (false, m) => (false, { g with matcher := m })
    | (true, m) =>
      let g' : XgrammarGrammar M := ⟨m, g.numProcessedTokens + 1, ops.isTerminated m⟩
      if g'.isTerminated then (true, g') else acceptLoop g' tokens

/-- `accept_tokens(request_id, tokens)`. -/
def acceptTokens (g : XgrammarGrammar M) (tokens : List τ) : Bool × XgrammarGrammar M :=
  if g.isTerminated then (true, g) else acceptLoop ops g tokens

/-- The loop of `validate_tokens`: the tokens accepted, and the matcher after it. -/
def validateLoop (m : M) : List τ → List τ × M
  | [] => ([], m)
  | token :: tokens =>
    match ops.accept m token with
    | (false, m') => ([], m')
    | (true, m') =>
      if ops.isTerminated m' then ([token], m')
      else
        let r := validateLoop m' tokens
        (token :: r.1, r.2)

/-- `validate_tokens(tokens)`. -/
def validateTokens (g : XgrammarGrammar M) (tokens : List τ) : List τ × XgrammarGrammar M :=
  if g.isTerminated then ([], g)
  else
    let r := validateLoop ops g.matcher tokens
    (r.1, { g with
      matcher := if 0 < r.1.length then ops.rollback r.2 r.1.length else r.2 })

/-- `rollback(num_tokens)`. -/
def rollback (g : XgrammarGrammar M) (n : ℕ) : XgrammarGrammar M :=
  let m := ops.rollback g.matcher n
  ⟨m, g.numProcessedTokens - n, ops.isTerminated m⟩

/-- `reset()`. -/
def reset (g : XgrammarGrammar M) : XgrammarGrammar M := ⟨ops.reset g.matcher, 0, false⟩

/-- A new grammar. -/
def new (m : M) : XgrammarGrammar M := ⟨m, 0, false⟩

/-! ### The manager -/

/-- A draft, and the two settings of the loop of the manager for it. -/
structure Draft (τ : Type v) where
  token : τ
  advanceGrammar : Bool
  postReasoningEndInWindow : Bool

/-- Feeding one draft. -/
def feedDraft (g : XgrammarGrammar M) (d : Draft τ) : Bool × XgrammarGrammar M :=
  if d.postReasoningEndInWindow then
    let r := validateTokens ops g [d.token]
    if r.1 ≠ [] then acceptTokens ops r.2 [d.token] else (false, r.2)
  else acceptTokens ops g [d.token]

/-- What the loop of the manager leaves: the grammar, `state_advancements`, and the token of the
`AssertionError` it stopped with, if any. -/
structure Advanced (M : Type u) (τ : Type v) where
  grammar : XgrammarGrammar M
  stateAdvancements : ℕ
  error : Option τ

/-- The loop of the manager over the drafts. -/
def managerLoop (g : XgrammarGrammar M) (stateAdvancements : ℕ) : List (Draft τ) → Advanced M τ
  | [] => ⟨g, stateAdvancements, none⟩
  | d :: ds =>
    if d.advanceGrammar && !g.isTerminated then
      let r := feedDraft ops g d
      if r.1 then managerLoop r.2 (stateAdvancements + 1) ds
      else if !d.postReasoningEndInWindow then ⟨r.2, stateAdvancements, some d.token⟩
      else managerLoop r.2 stateAdvancements ds
    else managerLoop g stateAdvancements ds

/-! ### What is consumed -/

section Consumed

variable {ops}

/-- The flag is that of the matcher. -/
def Synced (ops : Matcher M τ) (g : XgrammarGrammar M) : Prop :=
  g.isTerminated = ops.isTerminated g.matcher

/-- The loop of `validate_tokens` feeds a prefix of the tokens. -/
theorem validateLoop_feeds (hu : Undoable ops) (tokens : List τ) :
    ∀ {m : M}, ops.isTerminated m = false →
    Feeds ops m (validateLoop ops m tokens).1 (validateLoop ops m tokens).2 ∧
      (validateLoop ops m tokens).1 <+: tokens := by
  induction tokens with
  | nil => exact fun _ => ⟨.nil _, List.prefix_refl _⟩
  | cons token tokens ih =>
    intro m live
    rw [validateLoop]
    rcases h : ops.accept m token with ⟨_ | _, m'⟩
    · rw [hu.reject live h]
      exact ⟨.nil _, List.nil_prefix⟩
    · simp only
      split_ifs with hterm
      · exact ⟨.cons live h (.nil _), by simp⟩
      · obtain ⟨hf, hp⟩ := ih (Bool.not_eq_true _ ▸ hterm)
        exact ⟨.cons live h hf, List.cons_prefix_cons.mpr ⟨rfl, hp⟩⟩

/-- The loop of `accept_tokens` consumes what the loop of `validate_tokens` returns. -/
theorem acceptLoop_eq (hu : Undoable ops) (tokens : List τ) :
    ∀ {g : XgrammarGrammar M}, Synced ops g →
    ops.isTerminated g.matcher = false →
    (acceptLoop ops g tokens).2 = ⟨(validateLoop ops g.matcher tokens).2,
      g.numProcessedTokens + (validateLoop ops g.matcher tokens).1.length,
      ops.isTerminated (validateLoop ops g.matcher tokens).2⟩ := by
  induction tokens with
  | nil =>
    intro g hs _
    obtain ⟨m, n, b⟩ := g
    simp only [acceptLoop, validateLoop, List.length_nil, Int.natCast_zero, add_zero]
    rw [show b = ops.isTerminated m from hs]
  | cons token tokens ih =>
    intro g hs live
    rw [acceptLoop, validateLoop]
    rcases h : ops.accept g.matcher token with ⟨_ | _, m'⟩
    · obtain ⟨m, n, b⟩ := g
      obtain rfl := hu.reject live h
      simp only [List.length_nil, Int.natCast_zero, add_zero]
      rw [show b = ops.isTerminated m' from hs]
    · simp only
      split_ifs with hterm
      · simp [hterm]
      · have hs' : Synced ops (⟨m', g.numProcessedTokens + 1, ops.isTerminated m'⟩ :
          XgrammarGrammar M) := rfl
        rw [ih hs' (Bool.not_eq_true _ ▸ hterm)]
        simp only [List.length_cons, Nat.cast_add, Nat.cast_one]
        rw [show g.numProcessedTokens + 1 + ((validateLoop ops m' tokens).1.length : ℤ) =
          g.numProcessedTokens + (((validateLoop ops m' tokens).1.length : ℤ) + 1) by omega]

/-- **`validate_tokens`** leaves the grammar as it is. -/
theorem validateTokens_grammar (hu : Undoable ops) {g : XgrammarGrammar M} (hs : Synced ops g)
    (tokens : List τ) :
    (validateTokens ops g tokens).2 = g ∧ (validateTokens ops g tokens).1 <+: tokens := by
  rw [validateTokens]
  split_ifs with hterm
  · exact ⟨rfl, List.nil_prefix⟩
  · have live : ops.isTerminated g.matcher = false := hs ▸ Bool.not_eq_true _ ▸ hterm
    obtain ⟨hf, hp⟩ := validateLoop_feeds hu tokens live
    refine ⟨?_, hp⟩
    have hm : (if 0 < (validateLoop ops g.matcher tokens).1.length then
        ops.rollback (validateLoop ops g.matcher tokens).2
          (validateLoop ops g.matcher tokens).1.length
      else (validateLoop ops g.matcher tokens).2) = g.matcher := by
      split_ifs with hpos
      · exact hu.undo hf
      · rw [List.eq_nil_of_length_eq_zero (Nat.eq_zero_of_not_pos hpos)] at hf
        exact hf.eq_of_nil
    simp only [hm]

/-- The tokens take the grammar from `g` to `g'`. -/
structure Advances (ops : Matcher M τ) (g : XgrammarGrammar M) (tokens : List τ)
    (g' : XgrammarGrammar M) :
    Prop where
  feeds : Feeds ops g.matcher tokens g'.matcher
  processed : g'.numProcessedTokens = g.numProcessedTokens + tokens.length
  synced : Synced ops g'

theorem Advances.refl {g : XgrammarGrammar M} (hs : Synced ops g) : Advances ops g [] g :=
  ⟨.nil _, by simp, hs⟩

theorem Advances.trans {g g' g'' : XgrammarGrammar M} {ts us : List τ} (h : Advances ops g ts g')
    (h' : Advances ops g' us g'') : Advances ops g (ts ++ us) g'' := by
  refine ⟨h.feeds.append h'.feeds, ?_, h'.synced⟩
  rw [h'.processed, h.processed, List.length_append]
  push_cast
  omega

/-- **`accept_tokens`** consumes what `validate_tokens` would return. -/
theorem acceptTokens_advances (hu : Undoable ops) {g : XgrammarGrammar M} (hs : Synced ops g)
    (tokens : List τ) : Advances ops g (validateTokens ops g tokens).1
      (acceptTokens ops g tokens).2 := by
  rw [validateTokens, acceptTokens]
  split_ifs with hterm
  · exact .refl hs
  · have live : ops.isTerminated g.matcher = false := hs ▸ Bool.not_eq_true _ ▸ hterm
    rw [acceptLoop_eq hu tokens hs live]
    exact ⟨(validateLoop_feeds hu tokens live).1, rfl, rfl⟩

/-- Taking back what has been fed since a state restores the grammar. -/
theorem rollback_eq (hu : Undoable ops) {g g' : XgrammarGrammar M} (hs : Synced ops g) {ts : List τ}
    (h : Advances ops g ts g') : rollback ops g' ts.length = g := by
  obtain ⟨m, n, b⟩ := g
  simp only [rollback, hu.undo h.feeds, h.processed, add_sub_cancel_right]
  rw [show b = ops.isTerminated m from hs]

/-! ### The drafts -/

/-- One token fed to a grammar that has not terminated: it is consumed, or nothing changes. -/
theorem acceptTokens_single (hu : Undoable ops) {g : XgrammarGrammar M} (hs : Synced ops g)
    (live : g.isTerminated = false) (t : τ) :
    ((acceptTokens ops g [t]).1 = true ∧ Advances ops g [t] (acceptTokens ops g [t]).2) ∨
      acceptTokens ops g [t] = (false, g) := by
  have live' : ops.isTerminated g.matcher = false := hs ▸ live
  simp only [acceptTokens, live, Bool.false_eq_true, if_false, acceptLoop]
  rcases h : ops.accept g.matcher t with ⟨_ | _, m'⟩
  · obtain ⟨m, n, b⟩ := g
    obtain rfl := hu.reject live' h
    exact .inr (by rw [show b = false from live])
  · refine .inl ?_
    simp only [ite_self]
    exact ⟨trivial, .cons live' h (.nil _), rfl, rfl⟩

/-- A draft is consumed, or nothing changes. -/
theorem feedDraft_spec (hu : Undoable ops) {g : XgrammarGrammar M} (hs : Synced ops g)
    (live : g.isTerminated = false) (d : Draft τ) :
    ((feedDraft ops g d).1 = true ∧ Advances ops g [d.token] (feedDraft ops g d).2) ∨
      feedDraft ops g d = (false, g) := by
  simp only [feedDraft, (validateTokens_grammar hu hs [d.token]).1]
  split_ifs
  · exact acceptTokens_single hu hs live d.token
  · exact .inr rfl
  · exact acceptTokens_single hu hs live d.token

/-- **The loop of the manager** advances the grammar by as many tokens as it counts, also where
it stops with an error. -/
theorem managerLoop_advances (hu : Undoable ops) (ds : List (Draft τ)) :
    ∀ {g : XgrammarGrammar M} (n : ℕ), Synced ops g → ∃ ts,
      Advances ops g ts (managerLoop ops g n ds).grammar ∧
        (managerLoop ops g n ds).stateAdvancements = n + ts.length := by
  induction ds with
  | nil => exact fun n hs => ⟨[], .refl hs, rfl⟩
  | cons d ds ih =>
    intro g n hs
    rw [managerLoop]
    by_cases hfeed : (d.advanceGrammar && !g.isTerminated) = true
    · have live : g.isTerminated = false := by
        simp only [Bool.and_eq_true, Bool.not_eq_true'] at hfeed
        exact hfeed.2
      rw [if_pos hfeed]
      rcases feedDraft_spec hu hs live d with ⟨hacc, hadv⟩ | hrej
      · obtain ⟨ts, hts, hn⟩ := ih (n + 1) hadv.synced
        simp only [hacc, if_true]
        refine ⟨d.token :: ts, hadv.trans hts, ?_⟩
        rw [hn, List.length_cons]
        omega
      · simp only [hrej, Bool.false_eq_true, if_false]
        split_ifs
        · exact ⟨[], .refl hs, rfl⟩
        · exact ih n hs
    · rw [if_neg hfeed]
      exact ih n hs

/-- **Taking back `state_advancements` tokens** restores the grammar the loop started from. -/
theorem managerLoop_rollback (hu : Undoable ops) {g : XgrammarGrammar M} (hs : Synced ops g)
    (ds : List (Draft τ)) :
    rollback ops (managerLoop ops g 0 ds).grammar
      (managerLoop ops g 0 ds).stateAdvancements = g := by
  obtain ⟨ts, hts, hn⟩ := managerLoop_advances hu ds 0 hs
  rw [hn, zero_add]
  exact rollback_eq hu hs hts

end Consumed

/-! ### Sequences of calls -/

/-- The calls of a grammar. -/
inductive Call (τ : Type v) where
  | acceptTokens (tokens : List τ)
  | validateTokens (tokens : List τ)
  | rollback (numTokens : ℕ)
  | reset

/-- The grammar after a call. -/
def call (g : XgrammarGrammar M) : Call τ → XgrammarGrammar M
  | .acceptTokens tokens => (acceptTokens ops g tokens).2
  | .validateTokens tokens => (validateTokens ops g tokens).2
  | .rollback numTokens => rollback ops g numTokens
  | .reset => reset ops g

/-- A rollback takes back at most the tokens processed. -/
def Allowed (g : XgrammarGrammar M) : Call τ → Prop
  | .rollback numTokens => (numTokens : ℤ) ≤ g.numProcessedTokens
  | _ => True

/-- The grammars reached by allowed calls. -/
inductive Reached (g : XgrammarGrammar M) : XgrammarGrammar M → Prop where
  | start : Reached g g
  | call {g' : XgrammarGrammar M} (c : Call τ) (reached : Reached g g') (allowed : Allowed g' c) :
    Reached g (call ops g' c)

/-- A new grammar, over a matcher with an empty log. -/
def fresh (init : M) : XgrammarGrammar (Log M τ) := new ⟨init, [], 0⟩

/-- The bookkeeping: the grammar is a new one advanced by the tokens consumed. -/
def Inv (init : M) (g : XgrammarGrammar (Log M τ)) : Prop :=
  Advances (log ops) (fresh init) g.matcher.consumed g

section Runs

variable {ops} {init : M}

theorem Inv.fresh (hl : Lawful ops init) : Inv ops init (fresh init) :=
  .refl hl.live.symm

/-- Nothing is fed after the end. -/
theorem Inv.overfed {g : XgrammarGrammar (Log M τ)} (h : Inv ops init g) : g.matcher.overfed = 0 :=
  h.feeds.log_count

theorem Inv.processed {g : XgrammarGrammar (Log M τ)} (h : Inv ops init g) :
    g.numProcessedTokens = g.matcher.consumed.length :=
  (Advances.processed h).trans (zero_add _)

/-- The tokens a call consumes are those of the log. -/
theorem Inv.advances {g g' : XgrammarGrammar (Log M τ)} {ts : List τ} (h : Inv ops init g)
    (h' : Advances (log ops) g ts g') : Inv ops init g' ∧
      g'.matcher.consumed = g.matcher.consumed ++ ts := by
  have hc := h'.feeds.log_consumed
  refine ⟨?_, hc⟩
  unfold Inv
  rw [hc]
  exact Advances.trans h h'

/-- A rollback cuts the log. -/
theorem Inv.rollback (hl : Lawful ops init) {g : XgrammarGrammar (Log M τ)}
    (h : Inv ops init g) {n : ℕ}
    (hn : (n : ℤ) ≤ g.numProcessedTokens) : Inv ops init (rollback (log ops) g n) := by
  rw [h.processed, Int.ofNat_le] at hn
  have hcut := List.take_append_drop (g.matcher.consumed.length - n) g.matcher.consumed
  obtain ⟨m, h1, h2⟩ := (hcut ▸ Advances.feeds h).split
  have hlen : (g.matcher.consumed.drop (g.matcher.consumed.length - n)).length = n := by
    rw [List.length_drop]
    omega
  have hm : (log ops).rollback g.matcher n = m := hlen ▸ (Undoable.log hl).undo h2
  have hc : m.consumed = g.matcher.consumed.take (g.matcher.consumed.length - n) := h1.log_consumed
  unfold Grammar.rollback Inv
  simp only [hm]
  refine ⟨hc ▸ h1, ?_, rfl⟩
  rw [h.processed, hc, List.length_take_of_le (Nat.sub_le _ _)]
  simp only [Grammar.fresh, new]
  omega

/-- A reset starts anew. -/
theorem Inv.reset (hl : Lawful ops init) {g : XgrammarGrammar (Log M τ)} (h : Inv ops init g) :
    Inv ops init (reset (log ops) g) := by
  have hm : (log ops).reset g.matcher = ⟨init, [], 0⟩ := by
    simp only [log, hl.reset, h.overfed]
  unfold Grammar.reset
  rw [hm]
  exact .fresh hl

/-- A call keeps the bookkeeping. -/
theorem Inv.call (hl : Lawful ops init) {g : XgrammarGrammar (Log M τ)} (h : Inv ops init g)
    {c : Call τ}
    (hc : Allowed g c) : Inv ops init (call (log ops) g c) := by
  cases c with
  | acceptTokens tokens => exact (h.advances (acceptTokens_advances (.log hl) h.synced tokens)).1
  | validateTokens tokens =>
    rw [Grammar.call, (validateTokens_grammar (.log hl) h.synced tokens).1]
    exact h
  | rollback numTokens => exact h.rollback hl hc
  | reset => exact h.reset hl

/-- **Every sequence of calls** keeps the bookkeeping. -/
theorem Reached.inv (hl : Lawful ops init) {g : XgrammarGrammar (Log M τ)}
    (h : Reached (log ops) (Grammar.fresh init) g) : Inv ops init g := by
  induction h with
  | start => exact .fresh hl
  | call c _ allowed ih => exact ih.call hl allowed

/-- **The bookkeeping.** Whatever is called on a new grammar, its flag and its counter are those of
the matcher, which is never fed after its end; `validate_tokens` changes nothing and returns the
prefix `accept_tokens` consumes; and the manager can take back what its loop advances. -/
theorem bookkeeping (hl : Lawful ops init) {g : XgrammarGrammar (Log M τ)}
    (h : Reached (log ops) (Grammar.fresh init) g) :
    g.isTerminated = ops.isTerminated g.matcher.state ∧
      g.numProcessedTokens = g.matcher.consumed.length ∧
      g.matcher.overfed = 0 ∧
      (∀ tokens, (validateTokens (log ops) g tokens).2 = g ∧
        (validateTokens (log ops) g tokens).1 <+: tokens ∧
        (acceptTokens (log ops) g tokens).2.matcher.consumed =
          g.matcher.consumed ++ (validateTokens (log ops) g tokens).1) ∧
      ∀ drafts, rollback (log ops) (managerLoop (log ops) g 0 drafts).grammar
        (managerLoop (log ops) g 0 drafts).stateAdvancements = g := by
  have hi := h.inv hl
  have hu := Undoable.log hl
  refine ⟨hi.synced, hi.processed, hi.overfed, fun tokens => ?_, managerLoop_rollback hu hi.synced⟩
  obtain ⟨h1, h2⟩ := validateTokens_grammar hu hi.synced tokens
  exact ⟨h1, h2, (hi.advances (acceptTokens_advances hu hi.synced tokens)).2⟩

end Runs

/-! ### The matcher of the tests -/

/-- `FakeMatcher`: it ends on token 99 and refuses token -1. -/
def fakeMatcher : Matcher (List ℤ) ℤ where
  accept accepted token :=
    if accepted.getLast? = some 99 then (false, accepted)
    else if token = -1 then (false, accepted)
    else (true, accepted ++ [token])
  isTerminated accepted := accepted.getLast? = some 99
  rollback accepted count := accepted.take (accepted.length - count)
  reset _ := []

theorem fakeMatcher_accept {m m' : List ℤ} {t : ℤ} {b : Bool}
    (h : fakeMatcher.accept m t = (b, m')) :
    m' = if b then m ++ [t] else m := by
  simp only [fakeMatcher] at h
  split_ifs at h <;> cases h <;> rfl

theorem fakeMatcher_lawful : Lawful fakeMatcher [] where
  reject h := fakeMatcher_accept h
  undo {m m' ts} h := by
    have hm : m' = m ++ ts := by
      induction h with
      | nil => exact (List.append_nil _).symm
      | cons _ accepted _ ih => rw [ih, fakeMatcher_accept accepted]; simp
    simp only [fakeMatcher, hm, List.length_append, Nat.add_sub_cancel, List.take_left]
  reset _ := rfl
  live := rfl

/-- The drafts 8, -1 and 99 fed and taken back after the token 7. -/
theorem bookkeeping_fakeMatcher :
    let g := (acceptTokens (log fakeMatcher) (fresh []) [7]).2
    let r := managerLoop (log fakeMatcher) g 0
      [⟨8, true, false⟩, ⟨-1, true, true⟩, ⟨99, true, true⟩]
    r.grammar.matcher.consumed = [7, 8, 99] ∧ r.stateAdvancements = 2 ∧
      rollback (log fakeMatcher) r.grammar r.stateAdvancements = g :=
  ⟨by decide, by decide, (bookkeeping fakeMatcher_lawful
    (.call (.acceptTokens [7]) .start trivial)).2.2.2.2
      [⟨8, true, false⟩, ⟨-1, true, true⟩, ⟨99, true, true⟩]⟩

end Glm53Serve.Grammar
