import Glm53Serve.Overlay.DecodeFloor
import Glm53Serve.Overlay.PerGroupRetention
import Glm53Serve.Overlay.SuppressStops

/-!
# What a success of an installer means

The installers of the scheduler, of the coordinator and of the detokenizer take a file with their
mark for patched, and a helper of the right name for their own. They write without a temporary
file, so that a kill leaves a beginning of the patched text.

## What is proved

* `installed_iff` — after a success the file holds all of the overlay exactly if what the installer
  has taken for done was done.
* `cut_not_installed` — a file that was cut after the first mark is not completed.
-/

namespace Glm53Serve.Overlay

open Py

/-- The installers that go by a mark. -/
inductive Installer where
  | decodeFloor
  | hybridPrefixHit
  | perGroupRetention
  | suppressStops

namespace Installer

/-- The text that the installer leaves in the file when it reports a success; `env` is the switch of
the per-group retention. -/
def run (env : Option Text) : Installer → Option Text → Option Text
  | .decodeFloor, file => DecodeFloor.main file
  | .hybridPrefixHit, file => HybridPrefixHit.main file
  | .perGroupRetention, file => (PerGroupRetention.main env file).join
  | .suppressStops, file =>
    (SuppressStops.applyFile file).bind fun r =>
      if r.2 = .applied ∨ r.2 = .skipped then some r.1 else none

/-- Every snippet of the overlay is in the text. -/
def Complete : Installer → Text → Prop
  | .decodeFloor => DecodeFloor.Complete
  | .hybridPrefixHit => HybridPrefixHit.Complete
  | .perGroupRetention => PerGroupRetention.Complete
  | .suppressStops => SuppressStops.Complete

/-- The installer takes the text for patched. -/
def skips : Installer → Text → Bool
  | .decodeFloor => isIn DecodeFloor.mark
  | .hybridPrefixHit => isIn HybridPrefixHit.mark
  | .perGroupRetention => isIn PerGroupRetention.mark
  | .suppressStops => SuppressStops.skips

/-- The installer finds a helper of the name of its own. -/
def findsHelper : Installer → Text → Bool
  | .decodeFloor => isIn (joinLines DecodeFloor.guardLine)
  | .hybridPrefixHit => isIn (joinLines HybridPrefixHit.guardLine)
  | .perGroupRetention => isIn (joinLines HybridPrefixHit.guardLine)
  | .suppressStops => fun _ => false

/-- The text of the helper that the installer leaves out if it finds one of its name. -/
def helperCode : Installer → Text
  | .decodeFloor => joinLines DecodeFloor.helperCode
  | .hybridPrefixHit => joinLines HybridPrefixHit.helperCode
  | .perGroupRetention => joinLines HybridPrefixHit.helperCode
  | .suppressStops => []

/-- What the installer takes for done in the text is done: with the mark all of the overlay, with a
helper of the name the helper. -/
def Trusted (o : Installer) (t : Text) : Prop :=
  (o.skips t = true → o.Complete t) ∧
    (o.skips t = false → o.findsHelper t = true → o.helperCode <:+: t)

/-- **Exit 0 and installed**: after a success the file holds all of the overlay exactly if what the
installer has taken for done was done. -/
theorem installed_iff {env file : Option Text} {o : Installer} {t' : Text}
    (hon : PerGroupRetention.switchOn env = true) (h : o.run env file = some t') :
    ∃ t, file = some t ∧ (o.Complete t' ↔ o.Trusted t) := by
  cases o with
  | decodeFloor =>
    cases file with
    | none => cases h
    | some t => exact ⟨t, rfl, DecodeFloor.complete_main_iff h⟩
  | hybridPrefixHit =>
    cases file with
    | none => cases h
    | some t => exact ⟨t, rfl, HybridPrefixHit.complete_main_iff h⟩
  | perGroupRetention =>
    rw [run, PerGroupRetention.main, if_pos hon] at h
    cases file with
    | none => cases h
    | some t =>
      have hpatch : PerGroupRetention.patch t = some t' := by
        cases hp : PerGroupRetention.patch t with
        | none => simp [hp] at h
        | some t₁ => simpa [hp] using h
      exact ⟨t, rfl, PerGroupRetention.complete_patch_iff hpatch⟩
  | suppressStops =>
    cases file with
    | none => cases h
    | some t =>
      have hcond : (if (SuppressStops.applyText t).2 = .applied then (SuppressStops.applyText t).1
          else t) = (SuppressStops.applyText t).1 :=
        SuppressStops.written_eq t
      simp only [run, SuppressStops.applyFile, hcond, Option.map_some, Option.bind_some] at h
      split_ifs at h with hsucceeds
      cases h
      refine ⟨t, rfl, (SuppressStops.complete_applyText_iff hsucceeds).trans ?_⟩
      simp [Trusted, Complete, skips, findsHelper]

/-! ### A file that was cut -/

/-- The beginning of a patched scheduler, up to its first mark. -/
def runningCut : List String :=
  ["            if 0 < self.scheduler_config.long_prefill_token_threshold < num_new_tokens:",
   "                num_new_tokens = self.scheduler_config.long_prefill_token_threshold",
   "            num_new_tokens = min(",
   "                num_new_tokens, token_budget, input_budget - draft_slots",
   "            )",
   "            mixed_cap = _glm53_mixed_prefill_policy(self.running, request)  "]

/-- What a kill leaves of a scheduler that the installer of the decode floor has written up to its
first mark. -/
def cutScheduler : Text :=
  joinLines DecodeFloor.importNew ++
    (joinLines DecodeFloor.helper ++ (joinLines DecodeFloor.needle ++
    (joinLines runningCut ++ DecodeFloor.mark)))

/-- Whether the last text is not among the others. -/
def lacks : List Text → Bool
  | [importNew, helper, needle, runningCut, mark, waitingNew] =>
    !waitingNew.isEmpty && !isIn waitingNew
      (importNew ++ (helper ++ (needle ++ (runningCut ++ mark))))
  | _ => false

set_option maxRecDepth 20000 in
theorem lacks_cutScheduler :
    lacks ([DecodeFloor.importNew, DecodeFloor.helper, DecodeFloor.needle, runningCut,
      DecodeFloor.markLines, DecodeFloor.waitingNew].map joinLines) = true := by
  apply check_of_spelled lacks
  · unfold DecodeFloor.importNew DecodeFloor.helper DecodeFloor.helperCode
      DecodeFloor.needle runningCut
      DecodeFloor.markLines DecodeFloor.waitingNew
    simp only [List.cons_append, List.nil_append]
    repeat (first
      | exact SpelledAll.nil | apply SpelledAll.cons | exact Spelled.nil | apply Spelled.cons)
  · decide +kernel

theorem run_cutScheduler : run none .decodeFloor (some cutScheduler) = some cutScheduler := by
  have hne : DecodeFloor.mark ≠ [] := by decide +kernel
  have hmark : isIn DecodeFloor.mark cutScheduler = true := by
    rw [isIn_iff hne, cutScheduler]
    simp only [← List.append_assoc]
    exact (List.suffix_append _ _).isInfix
  rw [run, DecodeFloor.main, if_pos hmark]

theorem not_complete_cutScheduler : ¬Complete .decodeFloor cutScheduler := by
  intro h
  have hlacks := lacks_cutScheduler
  simp only [List.map_cons, List.map_nil, lacks, Bool.and_eq_true, Bool.not_eq_true',
    List.isEmpty_eq_false_iff] at hlacks
  have hin := (isIn_iff hlacks.1).mpr h.waiting
  rw [cutScheduler, DecodeFloor.mark, hlacks.2] at hin
  exact Bool.false_ne_true hin

/-- The installer reports a success on the cut file, and leaves it as it is. -/
theorem cut_not_installed :
    run none .decodeFloor (some cutScheduler) = some cutScheduler ∧
      ¬Complete .decodeFloor cutScheduler :=
  ⟨run_cutScheduler, not_complete_cutScheduler⟩

/-- The cut file is one whose mark cannot be trusted. -/
theorem installed_iff_cut : ∃ t, some cutScheduler = some t ∧
    (Complete .decodeFloor cutScheduler ↔ Trusted .decodeFloor t) :=
  installed_iff rfl run_cutScheduler

end Installer

end Glm53Serve.Overlay
