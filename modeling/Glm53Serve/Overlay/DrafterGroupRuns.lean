import Glm53Serve.Overlay.DrafterGroup

/-!
# Runs of the installer of the drafter group

A run takes a text of any generation to the last one, and a run of a text of the last generation
leaves it, if it has the marker. The one migration that can lose the marker is that of the compact
block: where no part that it keeps has the marker, the next run takes the text for pristine.

## What is proved

* `Step.run`, `patchFile_cases` — what a run does, from the branches that it takes.
* `Step.settled` — what it does leads to the last generation.
* `again_iff` — when the next run leaves the text.
* `converges_iff` — when the installer converges.
-/

namespace Glm53Serve.Overlay.DrafterGroup

open Py Occurrences

/-! ### The texts -/

/-- The edit that lets padded drafters through. -/
def allowEdit : Edit Char := Edit.between v4Old v4New

/-- The edit of the block that keeps the spec as it is. -/
def standaloneEdit : Edit Char := Edit.between oldStandalone newPadded

def generationTexts : List (List String) :=
  [markerText, v4OldText, v4NewText, v3MarkerText, v2CompactText, newPaddedText, oldStandaloneText]

def requiredTexts : List (List String) := required.map fun name => [name]

/-- The texts of the edits of the groups and the layout. -/
def layoutTexts : List (List String) :=
  [editPartitionAnchor, editPartitionNew, editGroupsReturnAnchor, editGroupsReturnNew,
   editLayoutAnnotAnchor, editLayoutAnnotNew, editLayoutDocAnchor, editLayoutDocNew,
   editLayoutDetectAnchor, editLayoutDetectNew, editLayoutValidateAnchor, editLayoutValidateNew,
   editLayoutReturnAnchor, editLayoutReturnNew]

/-- The texts of the edits of the pool and the configuration. -/
def poolTexts : List (List String) :=
  [editPoolBytesAnchor, editPoolBytesNew, editConfigDestructureAnchor, editConfigDestructureNew,
   editConfigPerBlockAnchor, editConfigPerBlockNew, editConfigSharedByAnchor, editConfigSharedByNew,
   editConfigDraftTensorsAnchor, editConfigDraftTensorsNew, editMaxmemDestructureAnchor,
   editMaxmemDestructureNew, editMaxmemBlocksAnchor, editMaxmemBlocksNew]

/-- The texts, two by two. -/
def pairs : List Text → List (Text × Text)
  | old :: new :: ts => (old, new) :: pairs ts
  | _ => []

/-- What the migrations do to the texts that the installer looks for. -/
def migrationsSound : List Text → Bool
  | marker :: v4Old :: v4New :: v3Marker :: v2Compact :: newPadded :: oldStandalone :: required =>
    let allow := Edit.between v4Old v4New
    let standalone := Edit.between oldStandalone newPadded
    [marker, v3Marker, v2Compact].all (allow.adds · 0) && allow.drops v4Old 1 &&
      [marker, v4Old].all (standalone.adds · 0) &&
      (marker :: v4Old :: required).all (Edit.apart · newPadded) && occurs v3Marker newPadded != 0
  | _ => false

/-- What the edits of a pristine file do to the texts of the generations, and to their own. -/
def editsSound : List Text → Bool
  | marker :: v4Old :: v3Marker :: newPadded :: texts =>
    let edits := (pairs texts).map fun p => Edit.between p.1 p.2
    edits.all (Edit.puts v4Old 0) && occurs marker ((pairs texts).headI).2 != 0 &&
      (edits.drop 1).all (Edit.keeps marker) && occurs v3Marker ((pairs texts).tail.headI).2 != 0 &&
      (edits.drop 2).all (Edit.keeps v3Marker) && Edit.sidesteps edits &&
      (pairs texts).all fun p => borderless p.1 && Edit.apart p.1 newPadded
  | _ => false

set_option maxRecDepth 40000 in
theorem migrationsSound_texts :
    migrationsSound ((generationTexts ++ requiredTexts).map joinLines) = true := by
  apply check_of_spelled migrationsSound
  · unfold generationTexts requiredTexts required markerText v4OldText v4NewText v3MarkerText
      newPaddedText v2CompactText oldStandaloneText paddedLines
    simp only [List.cons_append, List.nil_append, List.map_cons, List.map_nil]
    repeat (first
      | exact SpelledAll.nil | apply SpelledAll.cons | exact Spelled.nil | apply Spelled.cons)
  · decide +kernel

set_option maxRecDepth 40000 in
theorem editsSound_texts :
    editsSound (([markerText, v4OldText, v3MarkerText, newPaddedText] ++
      (layoutTexts ++ poolTexts)).map joinLines) = true := by
  apply check_of_spelled editsSound
  · unfold layoutTexts poolTexts markerText editPartitionAnchor editPartitionNew
      editGroupsReturnAnchor editGroupsReturnNew editLayoutAnnotAnchor editLayoutAnnotNew
      editLayoutDocAnchor editLayoutDocNew editLayoutDetectAnchor editLayoutDetectNew
      editLayoutValidateAnchor editLayoutValidateNew editLayoutReturnAnchor editLayoutReturnNew
      editPoolBytesAnchor editPoolBytesNew editConfigDestructureAnchor editConfigDestructureNew
      editConfigPerBlockAnchor editConfigPerBlockNew editConfigSharedByAnchor
      editConfigSharedByNew editConfigDraftTensorsAnchor editConfigDraftTensorsNew
      editMaxmemDestructureAnchor editMaxmemDestructureNew editMaxmemBlocksAnchor
      editMaxmemBlocksNew v4OldText v3MarkerText newPaddedText groupsReturnSpecs groupsReturnFit
      paddedLines groupsReturnTail
    simp only [List.cons_append, List.nil_append]
    repeat (first
      | exact SpelledAll.nil | apply SpelledAll.cons | exact Spelled.nil | apply Spelled.cons)
  · decide +kernel

theorem map_edit_edits : edits.map AnchoredEdit.edit =
    (pairs ((layoutTexts ++ poolTexts).map joinLines)).map fun p => Edit.between p.1 p.2 := rfl

theorem map_anchor_edits : edits.map AnchoredEdit.anchor =
    (pairs ((layoutTexts ++ poolTexts).map joinLines)).map Prod.fst := rfl

theorem map_joinLines_generation : (generationTexts ++ requiredTexts).map joinLines =
    marker :: v4Old :: v4New :: v3Marker :: v2Compact :: newPadded :: oldStandalone ::
      required.map String.toList := rfl

theorem map_joinLines_edits :
    ([markerText, v4OldText, v3MarkerText, newPaddedText] ++
      (layoutTexts ++ poolTexts)).map joinLines =
      marker :: v4Old :: v3Marker :: newPadded :: (layoutTexts ++ poolTexts).map joinLines := rfl

theorem migrationsSound_cons {marker v4Old v4New v3Marker v2Compact newPadded oldStandalone : Text}
    {required : List String}
    (h : migrationsSound (marker :: v4Old :: v4New :: v3Marker :: v2Compact ::
      newPadded :: oldStandalone :: required.map String.toList) = true) :
    (Edit.between v4Old v4New).adds marker 0 = true ∧
      (Edit.between v4Old v4New).adds v3Marker 0 = true ∧
      (Edit.between v4Old v4New).adds v2Compact 0 = true ∧
      (Edit.between v4Old v4New).drops v4Old 1 = true ∧
      (Edit.between oldStandalone newPadded).adds marker 0 = true ∧
      (Edit.between oldStandalone newPadded).adds v4Old 0 = true ∧
      Edit.apart marker newPadded = true ∧ Edit.apart v4Old newPadded = true ∧
      (∀ name ∈ required, Edit.apart name.toList newPadded = true) ∧
        occ v3Marker newPadded ≠ 0 := by
  simp only [migrationsSound, List.all_cons, List.all_nil, List.all_map, Function.comp_apply,
    Bool.and_eq_true, Bool.and_true, List.all_eq_true, bne_iff_ne, occurs_eq, and_assoc] at h
  exact h

theorem migrations_sound :
    allowEdit.adds marker 0 = true ∧ allowEdit.adds v3Marker 0 = true ∧
      allowEdit.adds v2Compact 0 = true ∧ allowEdit.drops v4Old 1 = true ∧
      standaloneEdit.adds marker 0 = true ∧ standaloneEdit.adds v4Old 0 = true ∧
      Edit.apart marker newPadded = true ∧ Edit.apart v4Old newPadded = true ∧
      (∀ name ∈ required, Edit.apart name.toList newPadded = true) ∧
        occ v3Marker newPadded ≠ 0 := by
  have h := migrationsSound_texts
  rw [map_joinLines_generation] at h
  exact migrationsSound_cons h

theorem edits_sound :
    (edits.map AnchoredEdit.edit).all (Edit.puts v4Old 0) = true ∧
      occ marker (joinLines editPartitionNew) ≠ 0 ∧
      ((edits.map AnchoredEdit.edit).drop 1).all (Edit.keeps marker) = true ∧
      occ v3Marker (joinLines editGroupsReturnNew) ≠ 0 ∧
      ((edits.map AnchoredEdit.edit).drop 2).all (Edit.keeps v3Marker) = true ∧
      Edit.sidesteps (edits.map AnchoredEdit.edit) = true ∧
      ∀ e ∈ edits, borderless e.anchor = true ∧ Edit.apart e.anchor newPadded = true := by
  have h := editsSound_texts
  rw [map_joinLines_edits] at h
  simp only [editsSound, Bool.and_eq_true, bne_iff_ne, occurs_eq, and_assoc] at h
  rw [← map_edit_edits] at h
  obtain ⟨hold, hmarker, hkept, hpadded, hkept', hsteps, hanchors⟩ := h
  refine ⟨hold, hmarker, hkept, hpadded, hkept', hsteps, fun e he => ?_⟩
  have hmem : e.anchor ∈ edits.map AnchoredEdit.anchor := List.mem_map_of_mem he
  rw [map_anchor_edits] at hmem
  obtain ⟨p, hp, heq⟩ := List.mem_map.mp hmem
  have hpair := List.all_eq_true.mp hanchors p hp
  rw [Bool.and_eq_true, heq] at hpair
  exact hpair

/-! ### What a run does -/

/-- The text after the first migration: padded drafters are let through. -/
def allowPadded (text : Text) : Text := replaceFirst v4Old v4New text

/-- The text after all edits of a pristine file. -/
def editAll (text : Text) : Text :=
  edits.foldl (fun t e => replaceFirst e.anchor e.replacement t) text

/-- What a migration of the drafter group makes of a text. -/
inductive Migration (syntaxError : Text → Option String) (text : Text) : Text → Prop where
  /-- The compact block is cut out. -/
  | compact {before after : Text} (hcompact : isIn v2Compact text = true)
      (hcut : compactCut text = some (before, after))
      (hparses : syntaxError (before ++ newPadded ++ after) = none) :
      Migration syntaxError text (before ++ newPadded ++ after)
  /-- The block that kept the spec as it was is replaced. -/
  | standalone (hcompact : isIn v2Compact text = false)
      (hstandalone : isIn oldStandalone text = true)
      (hparses : syntaxError (replaceFirst oldStandalone newPadded text) = none) :
      Migration syntaxError text (replaceFirst oldStandalone newPadded text)

/-- What a run that raises nothing makes of a text. -/
inductive Step (syntaxError : Text → Option String) (text : Text) : Text → Prop where
  /-- The text is of the last generation. -/
  | kept (hmarker : isIn marker text = true) (hold : isIn v4Old text = false)
      (hpadded : isIn v3Marker text = true) : Step syntaxError text text
  /-- Only the check of the layout is of an earlier one. -/
  | allowed (hmarker : isIn marker text = true) (hold : isIn v4Old text = true)
      (hparses : syntaxError (allowPadded text) = none)
      (hpadded : isIn v3Marker (allowPadded text) = true) : Step syntaxError text (allowPadded text)
  /-- The drafter group is of an earlier one, and the check of the layout may be. -/
  | migrated {new : Text} (hmarker : isIn marker text = true)
      (hparses : isIn v4Old text = true → syntaxError (allowPadded text) = none)
      (hpadded : isIn v3Marker (allowPadded text) = false)
      (hmigration : Migration syntaxError (allowPadded text) new) : Step syntaxError text new
  /-- The text is pristine. -/
  | pristine {new : Text} (hmarker : isIn marker text = false)
      (hrequired : ∀ name ∈ required, isIn name.toList text = true)
      (hedits : applyEdits edits text = .ok new) (hparses : syntaxError new = none) :
      Step syntaxError text new

theorem allowPadded_of_absent {text : Text} (h : isIn v4Old text = false) :
    allowPadded text = text := by
  rw [allowPadded, replaceFirst, splitFirst_eq_none.mpr (isIn_eq_false_iff.mp h)]

section
variable {path : String} {syntaxError : Text → Option String}

theorem checked_of_parses {file new : Text} {next : Outcome} (h : syntaxError new = none) :
    checked path syntaxError file new next = next := by
  rw [checked, h]

theorem checked_of_error {file new : Text} {e : String} (h : syntaxError new = some e)
    (next : Outcome) : checked path syntaxError file new next =
      fail file s!"POST-EDIT ast.parse FAILED for {path}: {e}" := by
  rw [checked, h]

theorem Migration.run {text new : Text} (h : Migration syntaxError text new) (dryRun : Bool)
    (file : Text) : migrate path syntaxError dryRun file text = write dryRun file new := by
  cases h with
  | compact hcompact hcut hparses =>
    rw [migrate, if_pos hcompact, hcut]
    exact checked_of_parses hparses
  | standalone hcompact hstandalone hparses =>
    rw [migrate, if_neg (by simp [hcompact]), if_pos hstandalone]
    exact checked_of_parses hparses

/-- A migration succeeds or raises an error, in a dry run the same. -/
theorem migrate_cases (path : String) (syntaxError : Text → Option String) (file text : Text) :
    (∃ new, Migration syntaxError text new) ∨
      ∃ m, ∀ dryRun, migrate path syntaxError dryRun file text = fail file m := by
  by_cases hcompact : isIn v2Compact text = true
  · cases hcut : compactCut text with
    | none =>
      right
      apply Exists.intro
      intro dryRun
      rw [migrate, if_pos hcompact, hcut]
    | some parts =>
      obtain ⟨before, after⟩ := parts
      cases hparses : syntaxError (before ++ newPadded ++ after) with
      | none => exact .inl ⟨_, .compact hcompact hcut hparses⟩
      | some e =>
        right
        apply Exists.intro
        intro dryRun
        rw [migrate, if_pos hcompact, hcut]
        exact checked_of_error hparses _
  · by_cases hstandalone : isIn oldStandalone text = true
    · cases hparses : syntaxError (replaceFirst oldStandalone newPadded text) with
      | none => exact .inl ⟨_, .standalone (by simpa using hcompact) hstandalone hparses⟩
      | some e =>
        right
        apply Exists.intro
        intro dryRun
        rw [migrate, if_neg hcompact, if_pos hstandalone]
        exact checked_of_error hparses _
    · right
      apply Exists.intro
      intro dryRun
      rw [migrate, if_neg hcompact, if_neg hstandalone]

/-- A run makes of the text what its branch makes of it. -/
theorem Step.run (path : String) {text new : Text} (h : Step syntaxError text new) (dryRun : Bool) :
    patchFile path syntaxError dryRun text = (.ok (), if dryRun then text else new) := by
  cases h with
  | kept hmarker hold hpadded =>
    rw [patchFile, if_pos hmarker, if_neg (by simp [hold]), if_pos hpadded, ite_self]
  | allowed hmarker hold hparses hpadded =>
    rw [patchFile, if_pos hmarker, if_pos hold, ← allowPadded]
    exact (checked_of_parses hparses).trans (if_pos hpadded)
  | migrated hmarker hparses hpadded hmigration =>
    rw [patchFile, if_pos hmarker]
    cases hold : isIn v4Old text with
    | true =>
      rw [if_pos rfl, ← allowPadded]
      refine (checked_of_parses (hparses hold)).trans ?_
      rw [if_neg (by simp [hpadded])]
      exact hmigration.run dryRun text
    | false =>
      rw [allowPadded_of_absent hold] at hpadded hmigration
      rw [if_neg Bool.false_ne_true, if_neg (by simp [hpadded])]
      exact hmigration.run dryRun text
  | pristine hmarker hrequired hedits hparses =>
    have hfind : required.find? (fun name => !isIn name.toList text) = none := by
      rw [List.find?_eq_none]
      exact fun name hname => by simp [hrequired name hname]
    rw [patchFile, if_neg (by simp [hmarker]), patchPristine, hfind, hedits]
    exact checked_of_parses hparses

/-- The edits of a pristine file are all made or an error is raised, in a dry run the same. -/
theorem patchPristine_cases (path : String) (syntaxError : Text → Option String) (text : Text) :
    (∃ new, (∀ name ∈ required, isIn name.toList text = true) ∧ applyEdits edits text = .ok new ∧
      syntaxError new = none) ∨
      ∃ e, ∀ dryRun, patchPristine path syntaxError dryRun text = (.error e, text) := by
  cases hfind : required.find? (fun name => !isIn name.toList text) with
  | some name =>
    right
    apply Exists.intro
    intro dryRun
    rw [patchPristine, hfind]
    rfl
  | none =>
    have hrequired : ∀ name ∈ required, isIn name.toList text = true := by
      simpa [List.find?_eq_none] using hfind
    cases hedits : applyEdits edits text with
    | error e =>
      refine .inr ⟨e, fun dryRun => ?_⟩
      rw [patchPristine, hfind, hedits]
    | ok new =>
      cases hparses : syntaxError new with
      | none => exact .inl ⟨new, hrequired, rfl, hparses⟩
      | some e =>
        right
        apply Exists.intro
        intro dryRun
        rw [patchPristine, hfind, hedits]
        exact checked_of_error hparses _

/-- A run takes one of the branches or raises an error, in a dry run the same. -/
theorem patchFile_cases (path : String) (syntaxError : Text → Option String) (text : Text) :
    (∃ new, Step syntaxError text new) ∨
      ∃ e, ∀ dryRun, patchFile path syntaxError dryRun text = (.error e, text) := by
  cases hmarker : isIn marker text with
  | true =>
    cases hold : isIn v4Old text with
    | true =>
      cases hparses : syntaxError (allowPadded text) with
      | some e =>
        right
        apply Exists.intro
        intro dryRun
        rw [patchFile, if_pos hmarker, if_pos hold, ← allowPadded]
        exact checked_of_error hparses _
      | none =>
        by_cases hpadded : isIn v3Marker (allowPadded text) = true
        · exact .inl ⟨_, .allowed hmarker hold hparses hpadded⟩
        · rcases migrate_cases path syntaxError text (allowPadded text) with ⟨new, h⟩ | ⟨m, h⟩
          · exact .inl ⟨new, .migrated hmarker (fun _ => hparses) (by simpa using hpadded) h⟩
          · refine .inr ⟨⟨m⟩, fun dryRun => ?_⟩
            rw [patchFile, if_pos hmarker, if_pos hold, ← allowPadded]
            exact (checked_of_parses hparses).trans ((if_neg hpadded).trans (h dryRun))
    | false =>
      by_cases hpadded : isIn v3Marker text = true
      · exact .inl ⟨_, .kept hmarker hold hpadded⟩
      · rcases migrate_cases path syntaxError text text with ⟨new, h⟩ | ⟨m, h⟩
        · refine .inl ⟨new, .migrated hmarker (by simp [hold]) ?_ ?_⟩
          · rw [allowPadded_of_absent hold]
            simpa using hpadded
          · rwa [allowPadded_of_absent hold]
        · refine .inr ⟨⟨m⟩, fun dryRun => ?_⟩
          rw [patchFile, if_pos hmarker, if_neg (by simp [hold]), if_neg hpadded]
          exact h dryRun
  | false =>
    rcases patchPristine_cases path syntaxError text with ⟨new, hrequired, hedits, hparses⟩ | ⟨e, h⟩
    · exact .inl ⟨new, .pristine hmarker hrequired hedits hparses⟩
    · refine .inr ⟨e, fun dryRun => ?_⟩
      rw [patchFile, if_neg (by simp [hmarker])]
      exact h dryRun

end

/-! ### Where it leads -/

/-- The snippets that the installer looks for. -/
def snippets : List Text :=
  [v4Old, v3Marker, v2Compact, standalone, draftUniform, oldStandalone] ++
    edits.map AnchoredEdit.anchor

/-- The snippets of the earlier generations. -/
def migrationSnippets : List Text := [oldStandalone, v2Compact, v4Old, v3Marker]

/-- A text of some generation: no snippet occurs twice, and none of an overlay without the marker.
-/
structure Generation (text : Text) : Prop where
  once : ∀ x ∈ snippets, occ x text ≤ 1
  marked : ∀ x ∈ migrationSnippets, isIn x text = true → isIn marker text = true

theorem finds_allowEdit {text : Text} (h : isIn v4Old text = true) :
    occ allowEdit.old text ≠ 0 := by
  rw [allowEdit, old_between]
  exact isIn_iff_occ.mp h

theorem apply_allowEdit (text : Text) : allowEdit.apply text = allowPadded text :=
  apply_between v4Old v4New text

theorem occ_allowPadded {x text : Text} (h : allowEdit.adds x 0 = true) :
    occ x (allowPadded text) = occ x text := by
  cases hold : isIn v4Old text with
  | false => rw [allowPadded_of_absent hold]
  | true => rw [← apply_allowEdit, Edit.occ_apply (finds_allowEdit hold) h, Nat.add_zero]

theorem isIn_allowPadded {x text : Text} (h : allowEdit.adds x 0 = true) :
    isIn x (allowPadded text) = isIn x text := by
  rw [isIn, isIn, occ_allowPadded h]

/-- The check that rejects padded drafters is gone. -/
theorem occ_v4Old_allowPadded {text : Text} (h : occ v4Old text ≤ 1) :
    occ v4Old (allowPadded text) = 0 := by
  obtain ⟨-, -, -, hdrops, -⟩ := migrations_sound
  cases hold : isIn v4Old text with
  | false =>
    rw [allowPadded_of_absent hold]
    exact isIn_eq_false_iff.mp hold
  | true =>
    have hone := Edit.occ_apply_of_drops (finds_allowEdit hold) hdrops
    rw [apply_allowEdit] at hone
    omega

theorem occ_newPadded {x : Text} (h : Edit.apart x newPadded = true) (before after : Text) :
    occ x (before ++ newPadded ++ after) = occ x before + occ x after :=
  Edit.occ_of_apart h before after

theorem occ_v3Marker_ne_zero (before after : Text) :
    occ v3Marker (before ++ newPadded ++ after) ≠ 0 := by
  obtain ⟨-, -, -, -, -, -, -, -, -, hpadded⟩ := migrations_sound
  have hle := occ_le_frame v3Marker before newPadded after
  omega

section
variable {syntaxError : Text → Option String}

/-- A migration puts the padded block and does not bring the check back. -/
theorem Migration.settled {text new : Text} (h : Migration syntaxError text new)
    (hold : occ v4Old text = 0) : isIn v3Marker new = true ∧ isIn v4Old new = false := by
  obtain ⟨-, -, -, -, -, hstandalone, -, hapart, -⟩ := migrations_sound
  rw [isIn_iff_occ, isIn_eq_false_iff]
  cases h with
  | @compact before after hcompact hcut hparses =>
    refine ⟨occ_v3Marker_ne_zero before after, ?_⟩
    obtain ⟨block, rfl⟩ := compactCut_spec hcut
    have hfirst := occ_add_le v4Old before block
    have hboth := occ_add_le v4Old (before ++ block) after
    rw [occ_newPadded hapart]
    omega
  | standalone hcompact hfound hparses =>
    have hfind := isIn_iff_occ.mp hfound
    have hpatches := patches_between hfind newPadded
    obtain ⟨before, after, -, hnew⟩ := exists_replaceFirst hfind newPadded
    refine ⟨?_, ?_⟩
    · rw [hnew]
      exact occ_v3Marker_ne_zero before after
    · rw [← apply_between, ← standaloneEdit, Edit.occ_apply _ hstandalone, hold]
      rwa [standaloneEdit, old_between]

theorem pristine_patches {text new : Text} (h : applyEdits edits text = .ok new) :
    Edit.PatchesOnce (edits.map AnchoredEdit.edit) text new :=
  (applyEdits_ok fun e he => (edits_sound.2.2.2.2.2.2 e he).1).mp h

/-- The edits of a pristine file put the marker and the padded block. -/
theorem pristine_marked {text new : Text} (h : applyEdits edits text = .ok new) :
    isIn marker new = true ∧ isIn v3Marker new = true := by
  obtain ⟨-, hmarker, hkept, hpadded, hkept', -⟩ := edits_sound
  have hpatches := (pristine_patches h).patches
  rw [isIn_iff_occ, isIn_iff_occ]
  constructor
  · have hall : edits.map AnchoredEdit.edit = [] ++
        Edit.between (joinLines editPartitionAnchor) (joinLines editPartitionNew) ::
          (edits.map AnchoredEdit.edit).drop 1 := rfl
    rw [hall] at hpatches
    rw [← new_between (joinLines editPartitionAnchor) (joinLines editPartitionNew)] at hmarker
    exact hpatches.occ_of_new hmarker hkept
  · have hall : edits.map AnchoredEdit.edit = (edits.map AnchoredEdit.edit).take 1 ++
        Edit.between (joinLines editGroupsReturnAnchor) (joinLines editGroupsReturnNew) ::
          (edits.map AnchoredEdit.edit).drop 2 := rfl
    rw [hall] at hpatches
    rw [← new_between (joinLines editGroupsReturnAnchor) (joinLines editGroupsReturnNew)] at hpadded
    exact hpatches.occ_of_new hpadded hkept'

/-- What a run does leads to the last generation. -/
theorem Step.settled {text new : Text} (hgen : Generation text) (h : Step syntaxError text new) :
    isIn v3Marker new = true ∧ isIn v4Old new = false := by
  have hone : occ v4Old text ≤ 1 := hgen.once v4Old (by simp [snippets])
  cases h with
  | kept hmarker hold hpadded => exact ⟨hpadded, hold⟩
  | allowed hmarker hold hparses hpadded =>
    exact ⟨hpadded, isIn_eq_false_iff.mpr (occ_v4Old_allowPadded hone)⟩
  | migrated hmarker hparses hpadded hmigration =>
    exact hmigration.settled (occ_v4Old_allowPadded hone)
  | pristine hmarker hrequired hedits hparses =>
    refine ⟨(pristine_marked hedits).2, ?_⟩
    have habsent : occ v4Old text = 0 := by
      by_contra hne
      have hmarked := hgen.marked v4Old (by simp [migrationSnippets]) (isIn_iff_occ.mpr hne)
      exact absurd (hmarker.symm.trans hmarked) Bool.false_ne_true
    obtain ⟨hfinds, rfl⟩ := (pristine_patches hedits).patches
    rw [isIn_eq_false_iff]
    exact Edit.occ_applyAll_of_absent hfinds edits_sound.1 habsent

/-! ### The next run -/

/-- A run cuts a compact block out between `before` and `after`. -/
structure CutsCompact (syntaxError : Text → Option String) (text before after : Text) : Prop where
  marked : isIn marker text = true
  unpadded : isIn v3Marker text = false
  compact : isIn v2Compact text = true
  cut : compactCut (allowPadded text) = some (before, after)
  parses_allowed : isIn v4Old text = true → syntaxError (allowPadded text) = none
  parses : syntaxError (before ++ newPadded ++ after) = none

/-- The two parts around a padded block have what a pristine file has. -/
structure Editable (syntaxError : Text → Option String) (before after : Text) : Prop where
  names : ∀ name ∈ required, isIn name.toList before = true ∨ isIn name.toList after = true
  anchors : ∀ e ∈ edits, occ e.anchor before + occ e.anchor after = 1
  parses : syntaxError (editAll (before ++ newPadded ++ after)) = none

/-- The only marker is in the compact block that the run cuts out, and the rest is like a pristine
file. -/
structure Relapses (syntaxError : Text → Option String) (text before after : Text) : Prop where
  cuts : CutsCompact syntaxError text before after
  marker_before : isIn marker before = false
  marker_after : isIn marker after = false
  editable : Editable syntaxError before after

theorem CutsCompact.step {text before after : Text}
    (h : CutsCompact syntaxError text before after) :
    Step syntaxError text (before ++ newPadded ++ after) := by
  obtain ⟨-, hpadded, hcompact, -⟩ := migrations_sound
  refine .migrated h.marked h.parses_allowed ?_ (.compact ?_ h.cut h.parses)
  · rw [isIn_allowPadded hpadded, h.unpadded]
  · rw [isIn_allowPadded hcompact, h.compact]

theorem marker_newPadded {before after : Text} :
    isIn marker (before ++ newPadded ++ after) = false ↔
      isIn marker before = false ∧ isIn marker after = false := by
  obtain ⟨-, -, -, -, -, -, hapart, -⟩ := migrations_sound
  rw [isIn_eq_false_iff, isIn_eq_false_iff, isIn_eq_false_iff, occ_newPadded hapart,
    Nat.add_eq_zero_iff]

/-- A run keeps the marker, unless it cuts it out with the compact block. -/
theorem Step.marked {text new : Text} (h : Step syntaxError text new) :
    isIn marker new = true ∨ ∃ before after, CutsCompact syntaxError text before after ∧
      new = before ++ newPadded ++ after ∧ isIn marker before = false ∧
        isIn marker after = false := by
  obtain ⟨hallow, hpaddedKept, hcompactKept, -, hstandalone, -⟩ := migrations_sound
  cases h with
  | kept hmarker hold hpadded => exact .inl hmarker
  | allowed hmarker hold hparses hpadded =>
    left
    rwa [isIn_allowPadded hallow]
  | pristine hmarker hrequired hedits hparses => exact .inl (pristine_marked hedits).1
  | migrated hmarker hallowed hpadded hmigration =>
    have hmarker' : isIn marker (allowPadded text) = true := by rwa [isIn_allowPadded hallow]
    cases hmigration with
    | standalone hcompact hfound hparses =>
      left
      have hpatches := patches_between (isIn_iff_occ.mp hfound) newPadded
      rw [isIn_of_patches hpatches (by simpa [standaloneEdit] using hstandalone)]
      exact hmarker'
    | @compact before after hcompact hcut hparses =>
      cases hnew : isIn marker (before ++ newPadded ++ after) with
      | true => exact .inl rfl
      | false =>
        obtain ⟨hbefore, hafter⟩ := marker_newPadded.mp hnew
        rw [isIn_allowPadded hcompactKept] at hcompact
        rw [isIn_allowPadded hpaddedKept] at hpadded
        exact .inr ⟨before, after, ⟨hmarker, hpadded, hcompact, hcut, hallowed, hparses⟩, rfl,
          hbefore, hafter⟩

theorem applyAll_edits (text : Text) :
    Edit.applyAll (edits.map AnchoredEdit.edit) text = editAll text := by
  rw [Edit.applyAll, editAll, List.foldl_map]
  congr 1
  funext t e
  exact apply_between _ _ t

/-- An unmarked text around a padded block is edited if it has what a pristine file has. -/
theorem editable_iff {before after : Text} (hbefore : isIn marker before = false)
    (hafter : isIn marker after = false) :
    (∃ new, Step syntaxError (before ++ newPadded ++ after) new) ↔
      Editable syntaxError before after := by
  obtain ⟨-, -, -, -, -, -, -, -, hnames, -⟩ := migrations_sound
  obtain ⟨-, -, -, -, -, hsteps, hanchors⟩ := edits_sound
  have hmarker := marker_newPadded.mpr ⟨hbefore, hafter⟩
  have hname : ∀ name ∈ required, isIn name.toList (before ++ newPadded ++ after) = true ↔
      isIn name.toList before = true ∨ isIn name.toList after = true := by
    intro name hmem
    rw [isIn_iff_occ, isIn_iff_occ, isIn_iff_occ, occ_newPadded (hnames name hmem)]
    omega
  have hanchor : ∀ e ∈ edits, e.edit.old = e.anchor ∧
      occ e.anchor (before ++ newPadded ++ after) = occ e.anchor before + occ e.anchor after :=
    fun e he => ⟨old_between _ _, occ_newPadded (hanchors e he).2 _ _⟩
  constructor
  · rintro ⟨new, h⟩
    cases h with
    | kept hmarker' => exact absurd (hmarker.symm.trans hmarker') Bool.false_ne_true
    | allowed hmarker' => exact absurd (hmarker.symm.trans hmarker') Bool.false_ne_true
    | migrated hmarker' => exact absurd (hmarker.symm.trans hmarker') Bool.false_ne_true
    | pristine hmarker' hrequired hedits hparses =>
      obtain ⟨hfinds, rfl⟩ := pristine_patches hedits
      refine ⟨fun name hmem => (hname name hmem).mp (hrequired name hmem), fun e he => ?_, ?_⟩
      · have hone := hfinds.once hsteps e.edit (List.mem_map_of_mem he)
        rwa [(hanchor e he).1, (hanchor e he).2] at hone
      · rwa [applyAll_edits] at hparses
  · rintro ⟨hrequired, hone, hparses⟩
    refine ⟨_, .pristine hmarker (fun name hmem =>
      (hname name hmem).mpr (hrequired name hmem)) ?_ hparses⟩
    rw [applyEdits_ok fun e he => (hanchors e he).1]
    refine ⟨Edit.findsOnce_of_sidesteps hsteps fun e he => ?_, applyAll_edits _⟩
    obtain ⟨row, hrow, rfl⟩ := List.mem_map.mp he
    rw [(hanchor row hrow).1, (hanchor row hrow).2, hone row hrow]

end

/-- The file is of the last generation, and a run leaves it. -/
structure Settled (path : String) (syntaxError : Text → Option String) (file : Text) : Prop where
  padded : isIn v3Marker file = true
  allowed : isIn v4Old file = false
  again : (patchFile path syntaxError false file).2 = file

/-- A run raises an error and leaves the file or settles it; a dry run leaves the file and raises an
error where a run does. -/
structure Converges (path : String) (syntaxError : Text → Option String) (text : Text) : Prop where
  run : (∃ e, patchFile path syntaxError false text = (.error e, text)) ∨
    (patchFile path syntaxError false text).1 = .ok () ∧
      Settled path syntaxError (patchFile path syntaxError false text).2
  dry : (patchFile path syntaxError true text).2 = text
  dry_raises : (∃ e, (patchFile path syntaxError true text).1 = .error e) ↔
    ∃ e, (patchFile path syntaxError false text).1 = .error e

section
variable {path : String} {syntaxError : Text → Option String}

/-- A run leaves its result, unless the result has lost the marker and looks like a pristine file.
-/
theorem again_iff (path : String) {text new : Text} (hgen : Generation text)
    (h : Step syntaxError text new) :
    (patchFile path syntaxError false new).2 = new ↔
      ¬∃ before after, Relapses syntaxError text before after := by
  obtain ⟨hpadded, hold⟩ := h.settled hgen
  have hrun : ∀ {t t' : Text}, Step syntaxError t t' →
      (patchFile path syntaxError false t).2 = t' :=
    fun hstep => by rw [hstep.run path]; rfl
  rcases h.marked with hmarker | ⟨before, after, hcuts, rfl, hbefore, hafter⟩
  · refine iff_of_true (hrun (.kept hmarker hold hpadded)) ?_
    rintro ⟨before, after, hrelapses⟩
    have hnew := (hrun h).symm.trans (hrun hrelapses.cuts.step)
    rw [hnew, ← Bool.not_eq_false] at hmarker
    exact hmarker (marker_newPadded.mpr ⟨hrelapses.marker_before, hrelapses.marker_after⟩)
  · have hunmarked := marker_newPadded.mpr ⟨hbefore, hafter⟩
    have hrelapses : (∃ new, Step syntaxError (before ++ newPadded ++ after) new) ↔
        ∃ before after, Relapses syntaxError text before after := by
      rw [editable_iff hbefore hafter]
      refine ⟨fun heditable => ⟨before, after, hcuts, hbefore, hafter, heditable⟩, ?_⟩
      rintro ⟨before', after', hrelapses⟩
      cases hcuts.cut.symm.trans hrelapses.cuts.cut
      exact hrelapses.editable
    rw [← hrelapses]
    constructor
    · -- the edits of a pristine file put the marker
      rintro hagain ⟨new, hstep⟩
      have hnew := (hrun hstep).symm.trans hagain
      rcases hstep.marked with hmarker | ⟨_, _, hcuts', _⟩
      · rw [hnew] at hmarker
        exact absurd (hunmarked.symm.trans hmarker) Bool.false_ne_true
      · exact absurd (hunmarked.symm.trans hcuts'.marked) Bool.false_ne_true
    · intro hnone
      rcases patchFile_cases path syntaxError (before ++ newPadded ++ after) with hstep | ⟨e, he⟩
      · exact absurd hstep hnone
      · rw [he false]

/-- The installer converges, unless the text relapses. -/
theorem converges_iff {text : Text} (hgen : Generation text) :
    Converges path syntaxError text ↔ ¬∃ before after, Relapses syntaxError text before after := by
  rcases patchFile_cases path syntaxError text with ⟨new, hstep⟩ | ⟨e, he⟩
  · have hrun := hstep.run path
    rw [← again_iff path hgen hstep]
    constructor
    · rintro ⟨⟨e, herror⟩ | ⟨-, hsettled⟩, -, -⟩
      · rw [hrun false] at herror
        cases herror
      · have hagain := hsettled.again
        rw [hrun false] at hagain
        exact hagain
    · intro hagain
      obtain ⟨hpadded, hold⟩ := hstep.settled hgen
      refine ⟨.inr ?_, ?_, ?_⟩
      · rw [hrun false]
        exact ⟨rfl, hpadded, hold, hagain⟩
      · rw [hrun true]
        rfl
      · rw [hrun true, hrun false]
  · refine iff_of_true ⟨.inl ⟨e, he false⟩, by rw [he true], by rw [he true, he false]⟩ ?_
    rintro ⟨before, after, hrelapses⟩
    have hrun := (hrelapses.cuts.step.run path false).symm.trans (he false)
    cases hrun

end

/-! ### A text that relapses -/

/-- A file with every anchor, in parts. -/
def pristineParts : List (List String) :=
  [["def _get_kv_cache_groups_glm5_next(kv_cache_spec):", ""], editPartitionAnchor,
   editGroupsReturnAnchor,
   ["", "", "def _glm5_next_tensor_layout(", "    groups: list[KVCacheGroupSpec],", ") -> (",
    "    tuple[", ""],
   editLayoutAnnotAnchor, ["    \"\"\"Returns:", ""], editLayoutDocAnchor, ["    \"\"\"", ""],
   editLayoutDetectAnchor, editLayoutValidateAnchor, editLayoutReturnAnchor,
   ["", "", "def _pool_bytes_per_block(glm5):", "    if glm5 is not None:", ""],
   editPoolBytesAnchor,
   ["", "", "def get_kv_cache_config_from_groups(glm5n):", "    if glm5n is not None:", ""],
   editConfigDestructureAnchor, editConfigPerBlockAnchor,
   ["        return [", "            KVCacheTensor(", "                size=mla_page * num_blocks,",
    ""],
   editConfigSharedByAnchor, ["        ] + [", ""], editConfigDraftTensorsAnchor,
   ["", "", "def _max_memory_usage_bytes_from_groups(glm5n):", "    if glm5n is not None:", ""],
   editMaxmemDestructureAnchor, editMaxmemBlocksAnchor,
   ["", "", "def _draft_group(any_draft: SlidingWindowSpec):", "    if any_draft is not None:",
    "        if any_draft.block_size:", "            new_draft_specs = \x7b\x7d", ""]]

/-- The rest of a compact block, with the marker. -/
def markedBlockText : List String :=
  ["",
   "            # DFLASH2-DRAFTER-GROUP",
   "            compact_block = 64",
   "            if any_draft.block_size > compact_block:",
   "                new_draft_specs = \x7b\x7d",
   ""]

def lineBreakText : List String := ["", ""]

/-- What stands before the block. -/
def relapsedHead : Text := (pristineParts.map joinLines).flatten

/-- A pristine file with a compact block, and the marker in it. -/
def relapsed : Text :=
  relapsedHead ++ (standalone ++ joinLines markedBlockText) ++
    (draftUniform ++ joinLines lineBreakText)

def anchorTexts : List (List String) :=
  [editPartitionAnchor, editGroupsReturnAnchor, editLayoutAnnotAnchor, editLayoutDocAnchor,
   editLayoutDetectAnchor, editLayoutValidateAnchor, editLayoutReturnAnchor, editPoolBytesAnchor,
   editConfigDestructureAnchor, editConfigPerBlockAnchor, editConfigSharedByAnchor,
   editConfigDraftTensorsAnchor, editMaxmemDestructureAnchor, editMaxmemBlocksAnchor]

/-- What the text has once, and what it lacks. -/
def relapsedSound : List Text → Bool
  | marker :: v4Old :: v3Marker :: v2Compact :: oldStandalone :: standalone :: draftUniform ::
      block :: lineBreak :: texts =>
    let required := texts.take 5
    let anchors := (texts.drop 5).take 14
    let head := (texts.drop 19).flatten
    let text := head ++ (standalone ++ block) ++ (draftUniform ++ lineBreak)
    [v4Old, v3Marker, oldStandalone].all (occurs · text == 0) &&
      [v2Compact, standalone, draftUniform].all (occurs · text == 1) && occurs marker text != 0 &&
      occurs marker head == 0 && occurs marker (draftUniform ++ lineBreak) == 0 &&
      required.all (fun name => occurs name head != 0 ||
        occurs name (draftUniform ++ lineBreak) != 0) &&
      anchors.all fun a =>
        (occurs a text).ble 1 && occurs a head + occurs a (draftUniform ++ lineBreak) == 1
  | _ => false

def relapsedTexts : List (List String) :=
  [markerText, v4OldText, v3MarkerText, v2CompactText, oldStandaloneText, standaloneText,
    draftUniformText, markedBlockText, lineBreakText]

set_option maxRecDepth 40000 in
theorem relapsedSound_texts :
    relapsedSound
      ((relapsedTexts ++ (requiredTexts ++ (anchorTexts ++ pristineParts))).map joinLines) =
      true := by
  apply check_of_spelled relapsedSound
  · unfold relapsedTexts requiredTexts anchorTexts pristineParts required markerText v4OldText
      v3MarkerText v2CompactText oldStandaloneText standaloneText draftUniformText markedBlockText
      lineBreakText editPartitionAnchor editGroupsReturnAnchor editLayoutAnnotAnchor
      editLayoutDocAnchor editLayoutDetectAnchor editLayoutValidateAnchor editLayoutReturnAnchor
      editPoolBytesAnchor editConfigDestructureAnchor editConfigPerBlockAnchor
      editConfigSharedByAnchor editConfigDraftTensorsAnchor editMaxmemDestructureAnchor
      editMaxmemBlocksAnchor
    simp only [List.cons_append, List.nil_append, List.map_cons, List.map_nil]
    repeat (first
      | exact SpelledAll.nil | apply SpelledAll.cons | exact Spelled.nil | apply Spelled.cons)
  · decide +kernel

theorem relapsedSound_cons
    {marker v4Old v3Marker v2Compact oldStandalone standalone draftUniform block
    lineBreak : Text} {required anchors parts : List Text} (hrequired : required.length = 5)
    (hanchors : anchors.length = 14)
    (h : relapsedSound (marker :: v4Old :: v3Marker :: v2Compact :: oldStandalone :: standalone ::
      draftUniform :: block :: lineBreak :: (required ++ (anchors ++ parts))) = true)
    {head tail text : Text} (hhead : head = parts.flatten)
    (htail : tail = draftUniform ++ lineBreak)
    (htext : text = head ++ (standalone ++ block) ++ tail) :
    (occ v4Old text = 0 ∧ occ v3Marker text = 0 ∧ occ oldStandalone text = 0) ∧
      (occ v2Compact text = 1 ∧ occ standalone text = 1 ∧ occ draftUniform text = 1) ∧
      occ marker text ≠ 0 ∧ occ marker head = 0 ∧ occ marker tail = 0 ∧
      (∀ name ∈ required, occ name head ≠ 0 ∨ occ name tail ≠ 0) ∧
      ∀ a ∈ anchors, occ a text ≤ 1 ∧ occ a head + occ a tail = 1 := by
  have hdrop : (required ++ (anchors ++ parts)).drop 19 = parts := by
    rw [show 19 = 5 + 14 from rfl, ← List.drop_drop, List.drop_left' hrequired,
      List.drop_left' hanchors]
  simp only [relapsedSound, List.take_left' hrequired, List.drop_left' hrequired,
    List.take_left' hanchors, hdrop, List.all_cons, List.all_nil, Bool.and_true, Bool.and_eq_true,
    List.all_eq_true, Bool.or_eq_true, bne_iff_ne, beq_iff_eq, Nat.ble_eq, occurs_eq] at h
  subst hhead htail htext
  obtain ⟨⟨⟨⟨⟨⟨habsent, hone⟩, hmarker⟩, hhead⟩, htail⟩, hnames⟩, hanchors⟩ := h
  exact ⟨habsent, hone, hmarker, hhead, htail, hnames, hanchors⟩

theorem map_anchor_texts : edits.map AnchoredEdit.anchor = anchorTexts.map joinLines := rfl

theorem map_joinLines_relapsed :
    (relapsedTexts ++ (requiredTexts ++ (anchorTexts ++ pristineParts))).map joinLines =
      marker :: v4Old :: v3Marker :: v2Compact :: oldStandalone :: standalone :: draftUniform ::
        joinLines markedBlockText :: joinLines lineBreakText :: (required.map String.toList ++
          (anchorTexts.map joinLines ++ pristineParts.map joinLines)) := by
  rw [List.map_append, List.map_append, List.map_append]
  rfl

/-- What stands behind the block. -/
def relapsedTail : Text := draftUniform ++ joinLines lineBreakText

theorem relapsed_counts :
    (occ v4Old relapsed = 0 ∧ occ v3Marker relapsed = 0 ∧ occ oldStandalone relapsed = 0) ∧
      (occ v2Compact relapsed = 1 ∧ occ standalone relapsed = 1 ∧ occ draftUniform relapsed = 1) ∧
      occ marker relapsed ≠ 0 ∧ occ marker relapsedHead = 0 ∧ occ marker relapsedTail = 0 ∧
      (∀ name ∈ required.map String.toList, occ name relapsedHead ≠ 0 ∨ occ name relapsedTail ≠ 0) ∧
      ∀ a ∈ edits.map AnchoredEdit.anchor, occ a relapsed ≤ 1 ∧
        occ a relapsedHead + occ a relapsedTail = 1 := by
  have h := relapsedSound_texts
  rw [map_joinLines_relapsed] at h
  rw [map_anchor_texts]
  exact relapsedSound_cons rfl rfl h rfl rfl rfl

theorem generation_relapsed : Generation relapsed := by
  obtain ⟨⟨hold, hpadded, hstandalone⟩, ⟨hcompact, hblock, hdraft⟩, hmarker, -, -, -, hanchors⟩ :=
    relapsed_counts
  refine ⟨fun x hx => ?_, fun _ _ _ => isIn_iff_occ.mpr hmarker⟩
  rw [snippets, List.mem_append] at hx
  rcases hx with hx | hx
  · simp only [List.mem_cons, List.not_mem_nil, or_false] at hx
    rcases hx with rfl | rfl | rfl | rfl | rfl | rfl <;> omega
  · exact (hanchors x hx).1

theorem standalone_ne_nil : standalone ≠ [] := by decide

theorem draftUniform_ne_nil : draftUniform ≠ [] := by decide

theorem compactCut_of_find {text : Text} {start stop : ℕ}
    (hstart : find text standalone 0 = some start)
    (hstop : find text draftUniform 0 = some stop) (hlt : start < stop) :
    compactCut text = some (text.take start, text.drop stop) := by
  rw [compactCut, hstart, hstop]
  exact if_neg (by omega)

/-- A block that begins with the comment and ends before the statement is cut out. -/
theorem compactCut_of_once {before block after text : Text}
    (htext : text = before ++ (standalone ++ block) ++ (draftUniform ++ after))
    (hblock : occ standalone text = 1) (hdraft : occ draftUniform text = 1) :
    compactCut text = some (before, draftUniform ++ after) := by
  have hfirst : text = before ++ standalone ++ (block ++ (draftUniform ++ after)) := by
    simp only [htext, List.append_assoc]
  have hsecond : text = (before ++ (standalone ++ block)) ++ draftUniform ++ after := by
    simp only [htext, List.append_assoc]
  have hstart : find text standalone 0 = some before.length := by
    rw [hfirst] at hblock ⊢
    exact find_of_once standalone_ne_nil hblock
  have hstop : find text draftUniform 0 = some (before ++ (standalone ++ block)).length := by
    rw [hsecond] at hdraft ⊢
    exact find_of_once draftUniform_ne_nil hdraft
  have hpos : standalone.length ≠ 0 := by
    rw [Ne, List.length_eq_zero_iff]
    exact standalone_ne_nil
  rw [compactCut_of_find hstart hstop (by rw [List.length_append, List.length_append]; omega)]
  have hbefore : text.take before.length = before := by
    rw [htext, List.append_assoc, List.take_left]
  have hafter : text.drop (before ++ (standalone ++ block)).length = draftUniform ++ after := by
    rw [htext, List.drop_left]
  rw [hbefore, hafter]

/-- The text relapses, if everything parses. -/
theorem relapses_relapsed : Relapses (fun _ => none) relapsed relapsedHead relapsedTail := by
  obtain ⟨⟨hold, hpadded, -⟩, ⟨hcompact, hblock, hdraft⟩, hmarker, hbefore, hafter, hnames,
      hanchors⟩ :=
    relapsed_counts
  have hold' : isIn v4Old relapsed = false := isIn_eq_false_iff.mpr hold
  have hcuts : CutsCompact (fun _ => none) relapsed relapsedHead relapsedTail := by
    constructor
    · exact isIn_iff_occ.mpr hmarker
    · exact isIn_eq_false_iff.mpr hpadded
    · rw [isIn_iff_occ, hcompact]
      exact Nat.one_ne_zero
    · rw [allowPadded_of_absent hold']
      exact compactCut_of_once rfl hblock hdraft
    · exact fun _ => rfl
    · rfl
  have heditable : Editable (fun _ => none) relapsedHead relapsedTail := by
    constructor
    · intro name hname
      rw [isIn_iff_occ, isIn_iff_occ]
      exact hnames name.toList (List.mem_map_of_mem hname)
    · exact fun e he => (hanchors e.anchor (List.mem_map_of_mem he)).2
    · rfl
  exact ⟨hcuts, isIn_eq_false_iff.mpr hbefore, isIn_eq_false_iff.mpr hafter, heditable⟩

/-- Two runs on that text: the first migrates the compact block, the second takes the result for
pristine and edits it again. -/
theorem relapsed_not_converges : Generation relapsed ∧
    (patchFile "kv_cache_utils.py" (fun _ => none) false relapsed).1 = .ok () ∧
    (patchFile "kv_cache_utils.py" (fun _ => none) false
      (patchFile "kv_cache_utils.py" (fun _ => none) false relapsed).2).2 ≠
        (patchFile "kv_cache_utils.py" (fun _ => none) false relapsed).2 ∧
    ¬Converges "kv_cache_utils.py" (fun _ => none) relapsed := by
  have hstep := relapses_relapsed.cuts.step
  have hrun := hstep.run "kv_cache_utils.py" false
  have hagain : (patchFile "kv_cache_utils.py" (fun _ => none) false
      (relapsedHead ++ newPadded ++ relapsedTail)).2 ≠ relapsedHead ++ newPadded ++
          relapsedTail := by
    rw [Ne, again_iff "kv_cache_utils.py" generation_relapsed hstep, not_not]
    exact ⟨relapsedHead, relapsedTail, relapses_relapsed⟩
  refine ⟨generation_relapsed, by rw [hrun], ?_, ?_⟩
  · rw [hrun]
    exact hagain
  · rintro ⟨⟨e, herror⟩ | ⟨-, hsettled⟩, -, -⟩
    · rw [hrun] at herror
      cases herror
    · have hkept := hsettled.again
      rw [hrun] at hkept
      exact hagain hkept

/-- On the same text, the condition of convergence. -/
theorem converges_iff_relapsed :
    Generation relapsed ∧ (Converges "kv_cache_utils.py" (fun _ => none) relapsed ↔
      ¬∃ before after, Relapses (fun _ => none) relapsed before after) :=
  ⟨generation_relapsed, converges_iff generation_relapsed⟩

end Glm53Serve.Overlay.DrafterGroup
