import Glm53Serve.AdaptiveK.Policy

/-!
# An override file that is ignored

When reading the override file fails, `_reload` prints "override file ignored" and goes on
with the policy it has. The fields are converted and assigned one after the other, so what
stood before the field that failed is already in force.

## The model

`Policy.reloadEnd` of the policy module; `Untouched` compares the settings and the averages
before and after it.

## What is proved

* `assign_settings` — what each setting is after the assignments, however they end.
* `assign_ignored_iff` — which files are ignored.
* `assign_candidates` — candidates, averages and histogram survive an ignored file.
* `reload_untouched_iff` — an ignored file changes nothing exactly when the fields before the
  one that fails hold what the policy holds already.
-/

namespace Glm53Serve.AdaptiveK

/-! ### Entries -/

namespace Entry

variable {α : Type*}

/-- The conversion of the entry returns. -/
def converts : Entry α → Bool
  | bad => false
  | _ => true

/-- What a setting is after its assignment: as it was where the entry is absent or refused. -/
def value (old : α) : Entry α → α
  | val a => a
  | _ => old

end Entry

namespace Policy

variable {F : Type}

/-! ### What an ignored file should leave -/

/-- `q` has the settings, the candidates, the averages and the histogram of `p`. -/
structure Untouched (p q : Policy F) : Prop where
  enabled : q.enabled = p.enabled
  alpha : q.alpha = p.alpha
  margin : q.margin = p.margin
  minSteps : q.minSteps = p.minSteps
  saturate : q.saturate = p.saturate
  kSet : q.kSet = p.kSet
  state : q.state = p.state
  hist : q.hist = p.hist

/-- The fields of the override before the first that its conversion refuses hold what the
policy holds already. -/
structure Agrees (p : Policy F) (cfg : Override F) : Prop where
  mode : modeOn (word (cfg.mode.getD ['e', 'm', 'a'])) = p.enabled
  alpha : cfg.alpha.value p.alpha = p.alpha
  margin : cfg.alpha.converts → cfg.margin.value p.margin = p.margin
  minSteps : cfg.alpha.converts && cfg.margin.converts → cfg.minSteps.value p.minSteps = p.minSteps
  saturate : cfg.alpha.converts && cfg.margin.converts && cfg.minSteps.converts →
    word (cfg.saturate.getD p.saturate) = p.saturate

/-! ### The assignments -/

/-- The settings after the assignments, however they end. -/
theorem assign_settings (p : Policy F) (cfg : Override F) :
    (p.assign cfg).1.enabled = modeOn (word (cfg.mode.getD ['e', 'm', 'a'])) ∧
      (p.assign cfg).1.alpha = cfg.alpha.value p.alpha ∧
      (p.assign cfg).1.margin =
        (if cfg.alpha.converts then cfg.margin.value p.margin else p.margin) ∧
      (p.assign cfg).1.minSteps =
        (if cfg.alpha.converts && cfg.margin.converts then cfg.minSteps.value p.minSteps
          else p.minSteps) ∧
      (p.assign cfg).1.saturate =
        (if cfg.alpha.converts && cfg.margin.converts && cfg.minSteps.converts then
          word (cfg.saturate.getD p.saturate) else p.saturate) := by
  obtain ⟨mode, alpha, margin, minSteps, saturate, set⟩ := cfg
  cases alpha <;> cases margin <;> cases minSteps <;> cases set <;>
    exact ⟨rfl, rfl, rfl, rfl, rfl⟩

/-- A file is ignored exactly when one of its fields does not convert. -/
theorem assign_ignored_iff (p : Policy F) (cfg : Override F) :
    (p.assign cfg).2 = .ignored ↔
      (cfg.alpha.converts && cfg.margin.converts && cfg.minSteps.converts &&
        cfg.set.converts) = false := by
  obtain ⟨mode, alpha, margin, minSteps, saturate, set⟩ := cfg
  cases alpha <;> cases margin <;> cases minSteps <;> cases set <;>
    simp [assign, Entry.get, Entry.converts]

/-- An ignored file leaves the candidates, the averages and the histogram. -/
theorem assign_candidates (p : Policy F) (cfg : Override F) (h : (p.assign cfg).2 = .ignored) :
    (p.assign cfg).1.kSet = p.kSet ∧ (p.assign cfg).1.state = p.state ∧
      (p.assign cfg).1.hist = p.hist := by
  obtain ⟨mode, alpha, margin, minSteps, saturate, set⟩ := cfg
  cases alpha <;> cases margin <;> cases minSteps <;> cases set <;>
    first
    | exact ⟨rfl, rfl, rfl⟩
    | cases h

theorem assign_untouched_iff (p : Policy F) (cfg : Override F) (h : (p.assign cfg).2 = .ignored) :
    p.Untouched (p.assign cfg).1 ↔ p.Agrees cfg := by
  obtain ⟨henabled, halpha, hmargin, hminSteps, hsaturate⟩ := p.assign_settings cfg
  obtain ⟨hkSet, hstate, hhist⟩ := p.assign_candidates cfg h
  constructor
  · intro hu
    refine ⟨henabled ▸ hu.enabled, halpha ▸ hu.alpha, fun hc => ?_, fun hc => ?_, fun hc => ?_⟩
    · exact (if_pos hc).symm.trans (hmargin.symm.trans hu.margin)
    · exact (if_pos hc).symm.trans (hminSteps.symm.trans hu.minSteps)
    · exact (if_pos hc).symm.trans (hsaturate.symm.trans hu.saturate)
  · intro ha
    refine ⟨henabled.trans ha.mode, halpha.trans ha.alpha, ?_, ?_, ?_, hkSet, hstate, hhist⟩
    · rw [hmargin]
      exact ite_eq_right_iff.mpr ha.margin
    · rw [hminSteps]
      exact ite_eq_right_iff.mpr ha.minSteps
    · rw [hsaturate]
      exact ite_eq_right_iff.mpr ha.saturate

/-! ### The reload -/

/-- A reload that ends in "override file ignored" leaves settings, candidates, averages and
histogram exactly when the file is no JSON object, or the fields before the first that does
not convert hold what the policy holds already. -/
theorem reload_untouched_iff (p : Policy F) (file : Option (OverrideFile F))
    (h : (p.reloadEnd file).2 = .ignored) :
    p.Untouched (p.reload file) ↔
      ∀ f ∈ file, ∀ cfg ∈ f.content, p.Agrees cfg := by
  simp only [reload, reloadEnd] at h ⊢
  split_ifs at h ⊢ with hb hm
  cases file with
  | none => cases h
  | some f =>
    cases hc : f.content with
    | none =>
      simp only [hc, Option.mem_some_iff, forall_eq', Option.not_mem_none, false_implies,
        implies_true, iff_true]
      exact ⟨rfl, rfl, rfl, rfl, rfl, rfl, rfl, rfl⟩
    | some cfg =>
      simp only [hc, Option.mem_some_iff, forall_eq'] at h ⊢
      have hq := assign_untouched_iff { p with fileMtime := some f.mtime } cfg h
      refine Iff.trans ⟨fun hu => ?_, fun hu => ?_⟩ (hq.trans ⟨fun ha => ?_, fun ha => ?_⟩)
      · exact ⟨hu.1, hu.2, hu.3, hu.4, hu.5, hu.6, hu.7, hu.8⟩
      · exact ⟨hu.1, hu.2, hu.3, hu.4, hu.5, hu.6, hu.7, hu.8⟩
      · exact ⟨ha.1, ha.2, ha.3, ha.4, ha.5⟩
      · exact ⟨ha.1, ha.2, ha.3, ha.4, ha.5⟩

/-! ### A file with a bad margin -/

/-- An override file that sets `alpha`, and a margin that is no number. -/
def badMargin : OverrideFile ℚ where
  mtime := 1
  content := some
    { mode := none, alpha := .val (1 / 2), margin := .bad, minSteps := .missing,
      saturate := none, set := .missing }

theorem badMargin_ignored : (defaultPolicy.reloadEnd (some badMargin)).2 = .ignored := by
  decide +kernel

/-- The file is ignored, but its `alpha` is in force. -/
theorem badMargin_alpha :
    (defaultPolicy.reloadEnd (some badMargin)).2 = .ignored ∧
      ¬ defaultPolicy.Untouched (defaultPolicy.reload (some badMargin)) := by
  refine ⟨badMargin_ignored, fun h => ?_⟩
  have halpha := h.alpha
  revert halpha
  decide +kernel

/-- It changes the policy, as its `alpha` is not the one of the policy. -/
theorem reload_untouched_iff_badMargin :
    defaultPolicy.Untouched (defaultPolicy.reload (some badMargin)) ↔
      ∀ f ∈ some badMargin, ∀ cfg ∈ f.content, defaultPolicy.Agrees cfg :=
  reload_untouched_iff defaultPolicy (some badMargin) badMargin_ignored

end Policy

end Glm53Serve.AdaptiveK
