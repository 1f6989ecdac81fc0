import Mathlib.Data.List.Basic

/-!
# Matchers that can be rolled back

A matcher takes tokens one at a time, may refuse a token, may terminate, and can take back
the last tokens it has accepted. A log around a matcher remembers the tokens it has
consumed, and counts the tokens it was fed after it had terminated.

## What is proved

* `Feeds.append`, `Feeds.split` — feeding tokens in two parts.
* `Undoable.log` — the log around a matcher that obeys the laws can be rolled back too.
* `Feeds.log_consumed`, `Feeds.log_count` — what the log says of what is fed.
-/

universe u v

/-- The operations of a matcher on its states. -/
structure Matcher (M : Type u) (τ : Type v) where
  /-- Whether a token is accepted, and the state after it. -/
  accept : M → τ → Bool × M
  isTerminated : M → Bool
  /-- Take back the last `n` tokens. -/
  rollback : M → ℕ → M
  reset : M → M

namespace Matcher

variable {M : Type u} {τ : Type v}

/-- The matcher accepts the tokens one after the other, none of them after it has terminated. -/
inductive Feeds (ops : Matcher M τ) : M → List τ → M → Prop where
  | nil (m : M) : Feeds ops m [] m
  | cons {m m' m'' : M} {t : τ} {ts : List τ} (live : ops.isTerminated m = false)
    (accepted : ops.accept m t = (true, m')) (rest : Feeds ops m' ts m'') :
      Feeds ops m (t :: ts) m''

variable {ops : Matcher M τ}

theorem Feeds.eq_of_nil {m m' : M} (h : Feeds ops m [] m') : m' = m := by
  cases h
  rfl

theorem Feeds.append {m m' m'' : M} {ts us : List τ} (h : Feeds ops m ts m')
    (h' : Feeds ops m' us m'') :
    Feeds ops m (ts ++ us) m'' := by
  induction h with
  | nil => exact h'
  | cons live accepted _ ih => exact .cons live accepted (ih h')

theorem Feeds.split {ts us : List τ} : ∀ {m m'' : M}, Feeds ops m (ts ++ us) m'' →
    ∃ m', Feeds ops m ts m' ∧ Feeds ops m' us m'' := by
  induction ts with
  | nil => exact fun h => ⟨_, .nil _, h⟩
  | cons t ts ih =>
    intro m m'' h
    rcases h with _ | ⟨live, accepted, rest⟩
    obtain ⟨m', h1, h2⟩ := ih rest
    exact ⟨m', .cons live accepted h1, h2⟩

/-- The laws: a refusal leaves the matcher as it is, `rollback` undoes the tokens accepted, and
`reset` restores the initial state, which is not terminated. -/
structure Lawful (ops : Matcher M τ) (init : M) : Prop where
  reject : ∀ {m m' : M} {t : τ}, ops.accept m t = (false, m') → m' = m
  undo : ∀ {m m' : M} {ts : List τ}, Feeds ops m ts m' → ops.rollback m' ts.length = m
  reset : ∀ m : M, ops.reset m = init
  live : ops.isTerminated init = false

/-- A matcher that can be rolled back, as long as it is not fed after it has terminated. -/
structure Undoable (ops : Matcher M τ) : Prop where
  reject : ∀ {m m' : M} {t : τ}, ops.isTerminated m = false → ops.accept m t = (false, m') → m' = m
  undo : ∀ {m m' : M} {ts : List τ}, Feeds ops m ts m' → ops.rollback m' ts.length = m

/-! ### The log -/

/-- A matcher with its log. -/
structure Log (M : Type u) (τ : Type v) where
  state : M
  /-- The tokens consumed since the last reset, less those taken back. -/
  consumed : List τ
  /-- How many tokens the matcher was fed after it had terminated. -/
  overfed : ℕ

/-- The operations of a matcher, logged. -/
def log (ops : Matcher M τ) : Matcher (Log M τ) τ where
  accept l t :=
    let r := ops.accept l.state t
    (r.1, ⟨r.2, if r.1 then l.consumed ++ [t] else l.consumed,
      if ops.isTerminated l.state then l.overfed + 1 else l.overfed⟩)
  isTerminated l := ops.isTerminated l.state
  rollback l n := ⟨ops.rollback l.state n, l.consumed.take (l.consumed.length - n), l.overfed⟩
  reset l := ⟨ops.reset l.state, [], l.overfed⟩

theorem log_accept_of_live {l l' : Log M τ} {t : τ} {b : Bool}
    (live : (log ops).isTerminated l = false)
    (h : (log ops).accept l t = (b, l')) : ops.accept l.state t = (b, l'.state) ∧
      l'.consumed = (if b then l.consumed ++ [t] else l.consumed) ∧ l'.overfed = l.overfed := by
  simp only [log] at live h
  rw [live] at h
  cases h
  exact ⟨rfl, rfl, rfl⟩

theorem Feeds.log_state {l l' : Log M τ} {ts : List τ} (h : Feeds (log ops) l ts l') :
    Feeds ops l.state ts l'.state := by
  induction h with
  | nil => exact .nil _
  | cons live accepted _ ih => exact .cons live (log_accept_of_live live accepted).1 ih

/-- What is fed is consumed. -/
theorem Feeds.log_consumed {l l' : Log M τ} {ts : List τ} (h : Feeds (log ops) l ts l') :
    l'.consumed = l.consumed ++ ts := by
  induction h with
  | nil => exact (List.append_nil _).symm
  | cons live accepted _ ih => rw [ih, (log_accept_of_live live accepted).2.1]; simp

/-- Nothing is fed after the matcher has terminated. -/
theorem Feeds.log_count {l l' : Log M τ} {ts : List τ} (h : Feeds (log ops) l ts l') :
    l'.overfed = l.overfed := by
  induction h with
  | nil => rfl
  | cons live accepted _ ih => rw [ih, (log_accept_of_live live accepted).2.2]

/-- **The log can be rolled back** if the matcher can. -/
theorem Undoable.log {init : M} (hl : Lawful ops init) : Undoable (log ops) where
  reject {l l' t} live h := by
    obtain ⟨h1, h2, h3⟩ := log_accept_of_live live h
    obtain ⟨m, c, n⟩ := l
    obtain ⟨m', c', n'⟩ := l'
    simp only [Bool.false_eq_true, if_false] at h1 h2 h3
    rw [hl.reject h1, h2, h3]
  undo {l l' ts} h := by
    have hstate := hl.undo h.log_state
    have hconsumed := h.log_consumed
    have hcount := h.log_count
    simp only [Matcher.log, hstate, hconsumed, hcount, List.length_append, Nat.add_sub_cancel,
      List.take_left]

end Matcher
