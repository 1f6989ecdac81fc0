import Glm53Serve.Overlay.HybridPrefixHit

/-!
# Installing the fine-grained prefix cache

`patch_fine_grained_apc.py` patches the coordinator of the KV caches: the first of the two functions
of the helper that it shares with `patch_hybrid_prefix_hit.py`, the veto and a message.

## The model

`patch_file`, from the text of the file to the text that it leaves; `none` where it raises. Which
texts `ast.parse` accepts is a parameter.

## What is proved

* `patchFile_patches` — the edits that it makes in a file without its marker.
* `complete_of_unmarked` — when the file is complete after a success.
* `patchFile_complete` — a complete file is left alone.
-/

namespace Glm53Serve.Overlay.FineGrainedApc

open Py Occurrences
open HybridPrefixHit (innerKvSpec needle guardLine)

/-! ### The texts -/

/-- `MARKER`. -/
def markerLines : List String :=
  ["[glm53-fgapc]"]

/-- `VETO_OLD`. -/
def vetoOld : List String :=
  ["            unsupported_partial_hit_managers = \x7b",
   "                type(manager).__name__",
   "                for manager in self.single_type_managers",
   "                if not manager.supports_fine_grained_hash_lookup",
   "                and manager.block_size != hash_block_size",
   "            \x7d"]

/-- `VETO_NEW`. -/
def vetoNew : List String :=
  ["            unsupported_partial_hit_managers = \x7b",
   "                type(manager).__name__",
   "                for manager, group in zip(",
   "                    self.single_type_managers, kv_cache_config.kv_cache_groups",
   "                )",
   "                # [glm53-fgapc] A transient/non-shareable manager cannot",
   "                # constrain prefix-hit granularity because it never",
   "                # participates in the lookup.",
   "                if group.kv_cache_spec.participates_in_prefix_caching",
   "                and not manager.supports_fine_grained_hash_lookup",
   "                and manager.block_size != hash_block_size",
   "            \x7d"]

/-- `DIAG_OLD`. -/
def diagOld : List String :=
  ["        self.verify_and_split_kv_cache_groups()"]

/-- `DIAG_NEW`. -/
def diagNew : List String :=
  ["        logger.info(",
   "            # [glm53-fgapc]",
   "            \"[glm53-fgapc] partial_hash=%s hash_block=%s managers=%s\",",
   "            self.enable_partial_hash_hits,",
   "            hash_block_size,",
   "            sorted(",
   "                (",
   "                    type(manager).__name__,",
   "                    manager.block_size,",
   "                    bool(group.kv_cache_spec.participates_in_prefix_caching),",
   "                    bool(",
   "                        getattr(",
   "                            manager, \"supports_fine_grained_hash_lookup\", False",
   "                        )",
   "                    ),",
   "                )",
   "                for manager, group in zip(",
   "                    self.single_type_managers, kv_cache_config.kv_cache_groups",
   "                )",
   "            ),",
   "        )",
   "        self.verify_and_split_kv_cache_groups()"]

/-- `HELPER`. -/
def helper : List String := "" :: (innerKvSpec ++ ["", "", ""])

/-- Where the helper is inserted if its other place is not unique. -/
def classNeedle : List String := ["class HybridKVCacheCoordinator"]

/-! ### The installer -/

/-- `MARKER`. -/
def marker : Text := joinLines markerLines

/-- The helper, if there is none of that name. -/
def withHelper (t : Text) : Option Text :=
  if isIn (joinLines guardLine) t then some t
  else if count t (joinLines needle) = 1 then
    some (replaceFirst (joinLines needle) (joinLines helper ++ joinLines needle) t)
  else replaceOnce t (joinLines classNeedle) (joinLines helper ++ joinLines classNeedle)

variable (parses : Text → Bool)

/-- `ast.parse`, which raises a `SyntaxError`. -/
def parsed (t : Text) : Option Text := if parses t then some t else none

/-- `patch_file`. -/
def patchFile (t : Text) : Option Text :=
  if isIn marker t then
    if isIn (joinLines vetoNew) t && isIn (joinLines diagNew) t then parsed parses t else none
  else if !isIn (joinLines vetoOld) t then none
  else do
    let t ← withHelper t
    let t := replaceFirst (joinLines vetoOld) (joinLines vetoNew) t
    let t ← replaceOnce t (joinLines diagOld) (joinLines diagNew)
    parsed parses t

/-- What the overlay puts into a file. -/
structure Complete (t : Text) : Prop where
  helper : joinLines innerKvSpec <:+: t
  veto : joinLines vetoNew <:+: t
  diag : joinLines diagNew <:+: t

/-! ### The edits -/

def helperEdit : Edit Char := Edit.between (joinLines needle) (joinLines helper ++ joinLines needle)

def vetoEdit : Edit Char := Edit.between (joinLines vetoOld) (joinLines vetoNew)

def diagEdit : Edit Char := Edit.between (joinLines diagOld) (joinLines diagNew)

def texts : List (List String) :=
  [needle, helper, vetoOld, vetoNew, diagOld, diagNew, markerLines, innerKvSpec]

/-- What the edits do to the texts of each other. -/
def editsSound : List Text → Bool
  | [needle, helper, vetoOld, vetoNew, diagOld, diagNew, marker, innerKvSpec] =>
    let edits := [Edit.between vetoOld vetoNew, Edit.between diagOld diagNew]
    (Edit.between needle (helper ++ needle)).keeps vetoOld && isIn innerKvSpec helper &&
      edits.all (Edit.keeps innerKvSpec) && Edit.keptInTurn edits && isIn marker vetoNew &&
      !marker.isEmpty && !vetoNew.isEmpty && !diagNew.isEmpty
  | _ => false

set_option maxRecDepth 20000 in
theorem editsSound_texts : editsSound (texts.map joinLines) = true := by
  apply check_of_spelled editsSound
  · unfold texts helper innerKvSpec needle vetoOld vetoNew diagOld diagNew markerLines
    simp only [List.cons_append, List.nil_append]
    repeat (first
      | exact SpelledAll.nil | apply SpelledAll.cons | exact Spelled.nil | apply Spelled.cons)
  · decide +kernel

theorem edits_sound :
    helperEdit.keeps (joinLines vetoOld) = true ∧
      isIn (joinLines innerKvSpec) (joinLines helper) = true ∧
      [vetoEdit, diagEdit].all (Edit.keeps (joinLines innerKvSpec)) = true ∧
      Edit.keptInTurn [vetoEdit, diagEdit] = true ∧ isIn marker (joinLines vetoNew) = true ∧
      marker ≠ [] ∧ joinLines vetoNew ≠ [] ∧ joinLines diagNew ≠ [] := by
  have h := editsSound_texts
  simp only [texts, List.map_cons, List.map_nil, editsSound, Bool.and_eq_true, and_assoc,
    Bool.not_eq_true', List.isEmpty_eq_false_iff] at h
  exact h

/-! ### What a run does -/

variable {parses}

theorem parsed_eq_some {t t' : Text} : parsed parses t = some t' ↔ parses t = true ∧ t = t' := by
  rw [parsed]
  split_ifs with h
  · simp [h]
  · simp [h]

/-- What the installer does to a file without the marker. -/
theorem patchFile_patches {t t' : Text} (hmarker : isIn marker t = false)
    (hneedle : isIn (joinLines guardLine) t = false → count t (joinLines needle) = 1)
    (h : patchFile parses t = some t') :
    ∃ t₁, Edit.Patches (if isIn (joinLines guardLine) t then [] else [helperEdit]) t t₁ ∧
      Edit.Patches [vetoEdit, diagEdit] t₁ t' := by
  obtain ⟨hkeeps, -⟩ := edits_sound
  rw [patchFile, hmarker, if_neg Bool.false_ne_true] at h
  split_ifs at h with hveto
  obtain ⟨t₁, h₁, h⟩ := Option.bind_eq_some_iff.mp h
  obtain ⟨t₂, h₂, h⟩ := Option.bind_eq_some_iff.mp h
  obtain ⟨-, rfl⟩ := parsed_eq_some.mp h
  have hhelper : Edit.Patches (if isIn (joinLines guardLine) t then [] else [helperEdit]) t t₁ := by
    rw [withHelper] at h₁
    cases hguard : isIn (joinLines guardLine) t with
    | true =>
      rw [hguard, if_pos rfl] at h₁
      cases h₁
      exact Edit.Patches.nil t
    | false =>
      rw [hguard, if_neg Bool.false_ne_true, if_pos (hneedle hguard)] at h₁
      cases h₁
      exact patches_between (occ_pos_of_count (hneedle hguard)) _
  have hoccurs : occ (joinLines vetoOld) t₁ ≠ 0 := by
    have hle := hhelper.occ_le (Edit.all_optional hkeeps)
    simp only [Bool.not_eq_true', Bool.not_eq_false, isIn_iff_occ] at hveto
    omega
  exact ⟨t₁, hhelper, (patches_between hoccurs _).append (patches_of_replaceOnce h₂)⟩

/-- A run whose edits find their texts once succeeds if the file parses then. -/
theorem patchFile_of_finds {t : Text} (hmarker : isIn marker t = false)
    (hguard : isIn (joinLines guardLine) t = false) (hneedle : occ (joinLines needle) t = 1)
    (hveto : isIn (joinLines vetoOld) t = true)
    (h : Edit.FindsOnce [helperEdit, vetoEdit, diagEdit] t) :
    patchFile parses t = parsed parses (Edit.applyAll [helperEdit, vetoEdit, diagEdit] t) := by
  obtain ⟨-, -, hdiag, -⟩ := h
  rw [diagEdit, old_between] at hdiag
  have hhelper : withHelper t = some (helperEdit.apply t) := by
    rw [withHelper, hguard, if_neg Bool.false_ne_true,
      if_pos (count_of_occ_one hneedle), helperEdit,
      apply_between]
  have hreplace : replaceFirst (joinLines vetoOld) (joinLines vetoNew) (helperEdit.apply t) =
      vetoEdit.apply (helperEdit.apply t) := (apply_between _ _ _).symm
  rw [patchFile, hmarker, if_neg Bool.false_ne_true, hveto, Bool.not_true,
    if_neg Bool.false_ne_true,
    hhelper]
  simp only [Option.bind_eq_bind, Option.bind_some, hreplace, replaceOnce_of_once hdiag]
  rfl

/-- A file without the marker is complete after a success if the helper that it has, if any, is that
of the overlay. -/
theorem complete_of_unmarked {t t' : Text} (hmarker : isIn marker t = false)
    (hneedle : isIn (joinLines guardLine) t = false → count t (joinLines needle) = 1)
    (h : patchFile parses t = some t')
    (hguarded : isIn (joinLines guardLine) t = true → joinLines innerKvSpec <:+: t) :
    Complete t' := by
  obtain ⟨-, hput, hkeeps, hturn, -⟩ := edits_sound
  obtain ⟨t₁, h₁, h₂⟩ := patchFile_patches hmarker hneedle h
  have hnew : joinLines innerKvSpec <:+: helperEdit.new := by
    rw [helperEdit, new_between]
    exact (infix_of_isIn hput).trans (List.prefix_append _ _).isInfix
  obtain ⟨hveto, hdiag⟩ : joinLines vetoNew <:+: t' ∧ joinLines diagNew <:+: t' := by
    have := h₂.new_within hturn
    simpa [vetoEdit, diagEdit, new_between] using this
  exact ⟨h₂.infix_of_keeps hkeeps ((h₁.infix_optional hnew).mpr hguarded), hveto, hdiag⟩

/-- A complete file is left alone. -/
theorem patchFile_complete {t : Text} (h : Complete t) : patchFile parses t = parsed parses t := by
  obtain ⟨-, -, -, -, hmarker, hne, hneVeto, hneDiag⟩ := edits_sound
  have hin : isIn marker t = true :=
    (isIn_iff hne).mpr ((infix_of_isIn hmarker).trans h.veto)
  rw [patchFile, if_pos hin, (isIn_iff hneVeto).mpr h.veto, (isIn_iff hneDiag).mpr h.diag]
  rfl

end Glm53Serve.Overlay.FineGrainedApc
