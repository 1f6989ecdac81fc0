import Glm53Serve.Lib.Windows
import Glm53Serve.Py.Replace

/-!
# Installers that check what they return

`prepare_backend`, `prepare_manager` and the two functions `prepare` replace texts that have to
occur once. They count the texts in what they are about to return, and a text that passes these
counts is taken for complete by the next run.

## What is proved

* `findsOnce_of_counts` — where every anchor occurs once, each is found once in its turn.
* `preflighted_of_verified` — what a text that passes the counts is.
-/

namespace Glm53Serve.Overlay

open Py Occurrences

/-- `ValueError`. -/
structure ValueError where
  message : String
  deriving DecidableEq

/-- The action that a function reports with the text. -/
inductive Action where
  | alreadyPresent
  | alreadyUpstream
  | alreadyPatched
  | patched
  deriving DecidableEq

def Action.text : Action → String
  | alreadyPresent => "already present"
  | alreadyUpstream => "already upstream"
  | alreadyPatched => "already patched"
  | patched => "patched"

/-- The action is one of those that begin with `already`. -/
def Action.already (a : Action) : Bool := "already".toList.isPrefixOf a.text.toList

/-- A site: what is replaced, the text whose occurrences are checked, and what is written (that
text, in two cases behind a marker). -/
structure Site where
  anchor : Text
  snippet : Text
  written : Text

def Site.edit (s : Site) : Edit Char := Edit.between s.anchor s.written

/-- The edits of some sites, one after another. -/
theorem applyAll_sites (s : Site) (sites : List Site) (t : Text) :
    Edit.applyAll ((s :: sites).map Site.edit) t =
      Edit.applyAll (sites.map Site.edit) (replaceFirst s.anchor s.written t) := by
  rw [List.map_cons, Edit.applyAll_cons, Site.edit, apply_between]

/-- What a function has returned: a text that is complete and stays, that of the source or, without
an `already`, the source with each anchor replaced once. -/
structure Preflighted (sites : List Site) (prepare : Text → Except ValueError (Text × Action))
    (source t : Text) (action : Action) : Prop where
  once : ∀ s ∈ sites, occ s.snippet t = 1
  anchors : ∀ s ∈ sites, occ s.anchor t = occ s.anchor s.snippet
  again : ∃ a : Action, a.already = true ∧ prepare t = .ok (t, a)
  kept : action.already = true → t = source
  replaced : action.already = false →
    ∃ es, es.Perm (sites.map Site.edit) ∧ Edit.Windows es source t

/-- The function fails, or returns a text that is complete and stays. -/
def Concludes (sites : List Site) (prepare : Text → Except ValueError (Text × Action))
    (source : Text) : Prop :=
  (∃ e, prepare source = .error e) ∨
    ∃ t action, prepare source = .ok (t, action) ∧ Preflighted sites prepare source t action

theorem concludes_of_preflighted {sites : List Site}
    {prepare : Text → Except ValueError (Text × Action)} {source : Text}
    (h : ∀ t action, prepare source = .ok (t, action) → Preflighted sites prepare source t action) :
    Concludes sites prepare source := by
  cases hp : prepare source with
  | error e => exact .inl ⟨e, hp⟩
  | ok out => exact .inr ⟨out.1, out.2, hp, h out.1 out.2 hp⟩

/-- Where a text comes from that a function returns. -/
def Stems (sites : List Site) (source t : Text) (action : Action) : Prop :=
  action.already = true ∧ t = source ∨
    action = .patched ∧ Edit.PatchesOnce (sites.map Site.edit) source t

/-- No text that is counted overlaps itself, and no edit meddles with an anchor behind it. -/
def soundSites (sites : List Site) : Bool :=
  sites.all (fun s => s.anchor != [] && borderless s.anchor && borderless s.snippet) &&
    Edit.sidesteps (sites.map Site.edit)

/-- No checked text contains its anchor. -/
def leaveNoAnchor (sites : List Site) : Bool := sites.all fun s => occurs s.anchor s.snippet == 0

/-- The counts of a complete text. -/
def Verified (sites : List Site) (t : Text) : Prop :=
  ∀ s ∈ sites, count t s.snippet = 1 ∧ count t s.anchor = occ s.anchor s.snippet

theorem occ_of_leaveNoAnchor {sites : List Site} (h : leaveNoAnchor sites = true) {s : Site}
    (hs : s ∈ sites) : occ s.anchor s.snippet = 0 := by
  rw [leaveNoAnchor, List.all_eq_true] at h
  rw [← occurs_eq, beq_iff_eq.mp (h s hs)]

/-- The counts where no checked text contains its anchor. -/
theorem verified_of_counts {sites : List Site} {t : Text} (h : leaveNoAnchor sites = true)
    (hone : ∀ s ∈ sites, count t s.snippet = 1 ∧ count t s.anchor = 0) : Verified sites t :=
  fun s hs => ⟨(hone s hs).1, by rw [(hone s hs).2, occ_of_leaveNoAnchor h hs]⟩

section
variable {sites : List Site} (h : soundSites sites = true)
include h

theorem borderless_of_sound {s : Site} (hs : s ∈ sites) :
    s.anchor ≠ [] ∧ borderless s.anchor = true ∧ borderless s.snippet = true := by
  rw [soundSites, Bool.and_eq_true, List.all_eq_true] at h
  simpa [and_assoc] using h.1 s hs

theorem sidesteps_of_sound : Edit.sidesteps (sites.map Site.edit) = true :=
  (Bool.and_eq_true_iff.mp h).2

/-- Where every anchor occurs once, each is found once in its turn. -/
theorem findsOnce_of_counts {source : Text} (hone : ∀ s ∈ sites, count source s.anchor = 1) :
    Edit.FindsOnce (sites.map Site.edit) source := by
  refine Edit.findsOnce_of_sidesteps (sidesteps_of_sound h) fun e he => ?_
  obtain ⟨s, hs, rfl⟩ := List.mem_map.mp he
  rw [Site.edit, old_between, ← count_eq_occ (borderless_of_sound h hs).2.1, hone s hs]

/-- What a text that passes the counts is, if the function leaves it alone and it stems from the
source. -/
theorem preflighted_of_verified {prepare : Text → Except ValueError (Text × Action)}
    {source t : Text} {action : Action} (hverified : Verified sites t)
    (hagain : ∃ a : Action, a.already = true ∧ prepare t = .ok (t, a))
    (hstems : Stems sites source t action) : Preflighted sites prepare source t action where
  once s hs := by
    rw [← count_eq_occ (borderless_of_sound h hs).2.2]
    exact (hverified s hs).1
  anchors s hs := by
    rw [← count_eq_occ (borderless_of_sound h hs).2.1]
    exact (hverified s hs).2
  again := hagain
  kept hact := by
    rcases hstems with ⟨-, ht⟩ | ⟨rfl, -⟩
    · exact ht
    · exact absurd hact (by decide)
  replaced hact := by
    rcases hstems with ⟨hact', -⟩ | ⟨-, hpatches⟩
    · exact absurd (hact.symm.trans hact') Bool.false_ne_true
    · refine hpatches.windows (fun e he => ?_) (sidesteps_of_sound h)
      obtain ⟨s, hs, rfl⟩ := List.mem_map.mp he
      rw [Site.edit, old_between]
      exact (borderless_of_sound h hs).1

end

end Glm53Serve.Overlay
