import Mathlib.Data.List.Basic
import Mathlib.Data.List.Induction

/-!
# Runs of a deterministic system

A system takes one event after another; a run is the list of the events. What one event
keeps, a run keeps, and what holds of every event at a state of the invariant holds of
every event of a run.

## What is proved

* `run_invariant` — the induction over a run.
* `run_occurs` — every event of a run happens at a state of the invariant.
* `run_iff` — what comes to hold in a run was brought about by one of its events.
* `run_filter` — a run agrees with the run of another system of some of the events, if the others
  leave what the two agree on.
-/

namespace Run

variable {σ ε : Type*} (step : σ → ε → σ)

/-- The state after the events. -/
def run (s : σ) (es : List ε) : σ := es.foldl step s

@[simp] theorem run_nil (s : σ) : run step s [] = s := rfl

@[simp] theorem run_cons (s : σ) (e : ε) (es : List ε) :
    run step s (e :: es) = run step (step s e) es := rfl

@[simp] theorem run_append (s : σ) (es es' : List ε) :
    run step s (es ++ es') = run step (run step s es) es' := List.foldl_append

/-- The event `e` happens at the state `t` in the run of `es` from `s`. -/
def Occurs (s : σ) (es : List ε) (t : σ) (e : ε) : Prop :=
  ∃ es₁ es₂, es = es₁ ++ e :: es₂ ∧ t = run step s es₁

variable {step}

theorem Occurs.append {s t : σ} {es : List ε} {e : ε} (h : Occurs step s es t e) (es' : List ε) :
    Occurs step s (es ++ es') t e := by
  obtain ⟨es₁, es₂, rfl, rfl⟩ := h
  exact ⟨es₁, es₂ ++ es', by simp, rfl⟩

/-- The last event happens at the state after the others. -/
theorem occurs_concat (s : σ) (es : List ε) (e : ε) : Occurs step s (es ++ [e]) (run step s es) e :=
  ⟨es, [], rfl, rfl⟩

/-- An invariant that every event keeps holds after every run. -/
theorem run_invariant (inv : σ → Prop) (h : ∀ s e, inv s → inv (step s e)) {s : σ} (hs : inv s)
    (es : List ε) : inv (run step s es) := by
  induction es generalizing s with
  | nil => exact hs
  | cons e es ih => exact ih (h s e hs)

/-- Every event of a run happens at a state of the invariant. -/
theorem run_occurs (inv : σ → Prop) (h : ∀ s e, inv s → inv (step s e)) {s t : σ} (hs : inv s)
    {es : List ε} {e : ε} (ho : Occurs step s es t e) : inv t := by
  obtain ⟨es₁, es₂, -, rfl⟩ := ho
  exact run_invariant inv h hs es₁

/-- Every event happens at some state. -/
theorem exists_occurs (s : σ) {es : List ε} {e : ε} (he : e ∈ es) : ∃ t, Occurs step s es t e := by
  obtain ⟨es₁, es₂, rfl⟩ := List.append_of_mem he
  exact ⟨_, es₁, es₂, rfl, rfl⟩

theorem Occurs.mem {s t : σ} {es : List ε} {e : ε} (h : Occurs step s es t e) : e ∈ es := by
  obtain ⟨es₁, es₂, rfl, -⟩ := h
  simp

/-- What an event brings about or leaves is brought about by some event of a run, or was there
before. -/
theorem run_iff {p : σ → Prop} {q : σ → ε → Prop} (h : ∀ s e, p (step s e) ↔ p s ∨ q s e) (s : σ)
    (es : List ε) : p (run step s es) ↔ p s ∨ ∃ t e, Occurs step s es t e ∧ q t e := by
  induction es using List.reverseRecOn with
  | nil =>
    refine ⟨.inl, fun hp => hp.elim id ?_⟩
    rintro ⟨t, e, ⟨es₁, es₂, hnil, -⟩, -⟩
    simp at hnil
  | append_singleton es e ih =>
    rw [run_append, run_cons, run_nil, h, ih, or_assoc]
    refine or_congr_right ⟨?_, ?_⟩
    · rintro (⟨t, e', ho, hq⟩ | hq)
      · exact ⟨t, e', ho.append _, hq⟩
      · exact ⟨_, e, occurs_concat s es e, hq⟩
    · rintro ⟨t, e', ⟨es₁, es₂, hes, rfl⟩, hq⟩
      rcases List.eq_nil_or_concat es₂ with rfl | ⟨es₃, e₃, rfl⟩
      · obtain ⟨rfl, hlast⟩ := List.append_inj' hes rfl
        cases hlast
        exact .inr hq
      · rw [List.concat_eq_append, ← List.cons_append, ← List.append_assoc] at hes
        obtain ⟨rfl, -⟩ := List.append_inj' hes rfl
        exact .inl ⟨_, e', ⟨es₁, es₃, rfl, rfl⟩, hq⟩

/-- A run agrees with another system's run of the events that are kept, if an event that is not kept
leaves what they agree on. -/
theorem run_filter {τ : Type*} {step' : τ → ε → τ} {R : σ → τ → Prop} {p : ε → Bool}
    (hkept : ∀ s t e, R s t → p e = true → R (step s e) (step' t e))
    (hleft : ∀ s t e, R s t → p e = false → R (step s e) t) {s : σ} {t : τ} (h : R s t)
    (es : List ε) :
    R (run step s es) (run step' t (es.filter p)) := by
  induction es generalizing s t with
  | nil => exact h
  | cons e es ih =>
    cases hp : p e with
    | true =>
      rw [List.filter_cons_of_pos hp]
      exact ih (hkept s t e h hp)
    | false =>
      rw [List.filter_cons_of_neg (by simp [hp])]
      exact ih (hleft s t e h hp)

end Run
