import Glm53Serve.Py.Replace

/-!
# Installing the hybrid prefix hit

`patch_hybrid_prefix_hit.py` patches the coordinator of the KV caches: a helper that it shares with
other overlays, and three blocks that use it.

## The model

`main`, from the text of the file that it finds to the text that it leaves; `none` where it exits
with an error.

## What is proved

* `main_patches` — the edits that it makes in a file without its mark.
* `complete_main_iff` — when the file is complete after a success.
-/

namespace Glm53Serve.Overlay.HybridPrefixHit

open Py Occurrences

/-! ### The texts -/

/-- `MARK`. -/
def markLines : List String :=
  ["# [glm53-hybrid-apc]"]

/-- `_glm53_inner_kv_spec`. -/
def innerKvSpec : List String :=
  ["def _glm53_inner_kv_spec(spec):",
   "    specs = getattr(spec, \"kv_cache_specs\", None)",
   "    if isinstance(specs, dict) and specs:",
   "        return next(iter(specs.values()))",
   "    return spec"]

/-- `_glm53_is_draft_swa_spec`. -/
def isDraftSwaSpec : List String :=
  ["def _glm53_is_draft_swa_spec(spec) -> bool:",
   "    \"\"\"DFlash2 drafter: exact SlidingWindowSpec, not KpoolTailSpec.\"\"\"",
   "    return type(_glm53_inner_kv_spec(spec)).__name__ == \"SlidingWindowSpec\""]

/-- `HELPER` without the blank lines around it. -/
def helperCode : List String := innerKvSpec ++ "" :: "" :: isDraftSwaSpec

/-- `HELPER`. -/
def helper : List String := "" :: (helperCode ++ ["", "", ""])

/-- Where the helper is inserted. -/
def needle : List String :=
  ["def _validate_prefix_cache_retention_interval(",
   ""]

/-- `EAGLE_OLD`. -/
def eagleOld : List String :=
  ["        # Conservatively fall back to flag all groups when no group is flagged.",
   "        if use_eagle and not self.eagle_group_ids:",
   "            self.eagle_group_ids = set(range(len(kv_cache_config.kv_cache_groups)))",
   ""]

/-- `EAGLE_NEW`. -/
def eagleNew : List String :=
  ["        # Conservatively fall back to flag all groups when no group is flagged.",
   "        if use_eagle and not self.eagle_group_ids:",
   "            # [glm53-hybrid-apc] dflash is use_eagle(); GLM has no is_eagle_group",
   "            # annotator. Flag only the drafter SlidingWindowSpec group so MLA /",
   "            # mamba do not drop a whole scheduler page (~3584). MTP with no SWA",
   "            # group keeps the upstream all-groups fallback.",
   "            swa_ids = \x7b",
   "                i",
   "                for i, g in enumerate(kv_cache_config.kv_cache_groups)",
   "                if _glm53_is_draft_swa_spec(g.kv_cache_spec)",
   "            \x7d",
   "            self.eagle_group_ids = swa_ids or set(",
   "                range(len(kv_cache_config.kv_cache_groups))",
   "            )",
   ""]

/-- `MIN_OLD`. -/
def minOld : List String :=
  ["                if drop_eagle_block:",
   "                    eagle_verified.add(idx)",
   "                elif _new_hit_length < curr_hit_length:",
   "                    # length shrunk; invalidate previous eagle verifications",
   "                    eagle_verified.clear()",
   "                curr_hit_length = _new_hit_length",
   "                for group_id, blocks in zip(group_ids, hit_blocks):",
   "                    hit_blocks_by_group[group_id] = blocks",
   "                    hit_length_by_group[group_id] = _new_hit_length",
   "",
   "                longest_hit_length = max(longest_hit_length, curr_hit_length)",
   ""]

/-- `MIN_NEW`. -/
def minNew : List String :=
  ["                if drop_eagle_block:",
   "                    eagle_verified.add(idx)",
   "                elif _new_hit_length < curr_hit_length:",
   "                    # length shrunk; invalidate previous eagle verifications",
   "                    eagle_verified.clear()",
   "                if _glm53_is_draft_swa_spec(spec):  # [glm53-hybrid-apc]",
   "                    # Drafter SWA must not min() the hybrid hit. Its EAGLE pop",
   "                    # re-aligns by LCM(window block, MLA page) = 3584. If the",
   "                    # cached window does not cover the MLA/mamba hit, leave",
   "                    # blocks empty so a fresh window is allocated; do not",
   "                    # reseed the indexer tail here (KpoolTail already opted out).",
   "                    if _new_hit_length >= curr_hit_length:",
   "                        for group_id, blocks in zip(group_ids, hit_blocks):",
   "                            hit_blocks_by_group[group_id] = blocks",
   "                            hit_length_by_group[group_id] = _new_hit_length",
   "                    continue",
   "                curr_hit_length = _new_hit_length",
   "                for group_id, blocks in zip(group_ids, hit_blocks):",
   "                    hit_blocks_by_group[group_id] = blocks",
   "                    hit_length_by_group[group_id] = _new_hit_length",
   "",
   "                longest_hit_length = max(longest_hit_length, curr_hit_length)",
   ""]

/-- `LOG_OLD`. -/
def logOld : List String :=
  ["        # Propagate the eagle bit to each manager (default to ``use_eagle=False``).",
   "        for group in self.attention_groups:",
   "            if group.use_eagle:",
   "                for gid in group.group_ids:",
   "                    self.single_type_managers[gid].use_eagle = True",
   ""]

/-- `LOG_NEW`. -/
def logNew : List String :=
  ["        # Propagate the eagle bit to each manager (default to ``use_eagle=False``).",
   "        for group in self.attention_groups:",
   "            if group.use_eagle:",
   "                for gid in group.group_ids:",
   "                    self.single_type_managers[gid].use_eagle = True",
   "        logger.info(  # [glm53-hybrid-apc]",
   "            \"hybrid APC groups: %s; eagle_group_ids=%s\",",
   "            [",
   "                (",
   "                    type(_glm53_inner_kv_spec(g.spec)).__name__,",
   "                    g.group_ids,",
   "                    getattr(g.manager_cls, \"__name__\", type(g.manager_cls).__name__),",
   "                    g.use_eagle,",
   "                )",
   "                for g in self.attention_groups",
   "            ],",
   "            sorted(self.eagle_group_ids),",
   "        )",
   ""]

/-- What the installer looks for before it inserts the helper. -/
def guardLine : List String := ["def _glm53_inner_kv_spec("]

/-! ### The installer -/

/-- `MARK`. -/
def mark : Text := joinLines markLines

/-- The helper, if there is none of that name. -/
def withHelper (t : Text) : Option Text :=
  if isIn (joinLines guardLine) t then some t
  else some (replaceFirst (joinLines needle) (joinLines helper ++ joinLines needle) t)

/-- `main`: the text that it leaves in the file when it exits with 0. -/
def main : Option Text → Option Text
  | none => none
  | some t =>
    if isIn mark t then some t
    else if count t (joinLines needle) ≠ 1 then none
    else do
      let t ← withHelper t
      let t ← replaceOnce t (joinLines eagleOld) (joinLines eagleNew)
      let t ← replaceOnce t (joinLines minOld) (joinLines minNew)
      replaceOnce t (joinLines logOld) (joinLines logNew)

/-- What the overlay puts into a file: the helper and the three blocks. -/
structure Complete (t : Text) : Prop where
  helper : joinLines helperCode <:+: t
  eagle : joinLines eagleNew <:+: t
  min : joinLines minNew <:+: t
  log : joinLines logNew <:+: t

/-! ### The edits -/

def helperEdit : Edit Char := Edit.between (joinLines needle) (joinLines helper ++ joinLines needle)

def eagleEdit : Edit Char := Edit.between (joinLines eagleOld) (joinLines eagleNew)

def minEdit : Edit Char := Edit.between (joinLines minOld) (joinLines minNew)

def logEdit : Edit Char := Edit.between (joinLines logOld) (joinLines logNew)

def texts : List (List String) :=
  [helper, eagleOld, eagleNew, minOld, minNew, logOld, logNew, helperCode]

/-- What the edits do to the texts of each other. -/
def editsSound : List Text → Bool
  | [helper, eagleOld, eagleNew, minOld, minNew, logOld, logNew, helperCode] =>
    let edits := [Edit.between eagleOld eagleNew, Edit.between minOld minNew,
      Edit.between logOld logNew]
    isIn helperCode helper && edits.all (Edit.adds helperCode 0) && Edit.keptInTurn edits &&
      borderless eagleOld && borderless minOld && borderless logOld
  | _ => false

set_option maxRecDepth 20000 in
theorem editsSound_texts : editsSound (texts.map joinLines) = true := by
  apply check_of_spelled editsSound
  · unfold texts helper eagleOld eagleNew minOld minNew logOld logNew helperCode innerKvSpec
      isDraftSwaSpec
    simp only [List.cons_append, List.nil_append]
    repeat (first
      | exact SpelledAll.nil | apply SpelledAll.cons | exact Spelled.nil | apply Spelled.cons)
  · decide +kernel

theorem edits_sound :
    isIn (joinLines helperCode) (joinLines helper) = true ∧
      [eagleEdit, minEdit, logEdit].all (Edit.adds (joinLines helperCode) 0) = true ∧
      Edit.keptInTurn [eagleEdit, minEdit, logEdit] = true ∧
      borderless (joinLines eagleOld) = true ∧ borderless (joinLines minOld) = true ∧
      borderless (joinLines logOld) = true := by
  have h := editsSound_texts
  simp only [texts, List.map_cons, List.map_nil, editsSound, Bool.and_eq_true, and_assoc] at h
  exact h

/-! ### What a success means -/

/-- What the installer does to a file without the mark. -/
theorem main_patches {t t' : Text} (hmark : isIn mark t = false) (h : main (some t) = some t') :
    count t (joinLines needle) = 1 ∧ ∃ t₁,
      Edit.Patches (if isIn (joinLines guardLine) t then [] else [helperEdit]) t t₁ ∧
      Edit.PatchesOnce [eagleEdit, minEdit, logEdit] t₁ t' := by
  obtain ⟨-, -, -, heagle, hmin, hlog⟩ := edits_sound
  rw [main, hmark, if_neg Bool.false_ne_true] at h
  split_ifs at h with hcount
  rw [not_not] at hcount
  obtain ⟨t₁, h₁, h⟩ := Option.bind_eq_some_iff.mp h
  obtain ⟨t₂, h₂, h⟩ := Option.bind_eq_some_iff.mp h
  obtain ⟨t₃, h₃, h₄⟩ := Option.bind_eq_some_iff.mp h
  refine ⟨hcount, t₁, ?_, (patchesOnce_of_replaceOnce heagle h₂).append
    ((patchesOnce_of_replaceOnce hmin h₃).append (patchesOnce_of_replaceOnce hlog h₄))⟩
  refine patches_of_optional (c := isIn (joinLines guardLine) t) ?_
  rw [replaceOnce, if_pos hcount]
  exact h₁

theorem withHelper_eq (t : Text) : withHelper t =
    some (Edit.applyAll (if isIn (joinLines guardLine) t then [] else [helperEdit]) t) := by
  rw [withHelper]
  cases isIn (joinLines guardLine) t with
  | true => rfl
  | false =>
    rw [if_neg Bool.false_ne_true, if_neg Bool.false_ne_true, Edit.applyAll, List.foldl_cons,
      List.foldl_nil, helperEdit, apply_between]

/-- A run whose edits find their texts once succeeds. -/
theorem main_of_finds {t : Text} (hmark : isIn mark t = false)
    (hneedle : occ (joinLines needle) t = 1)
    (h : Edit.FindsOnce ((if isIn (joinLines guardLine) t then [] else [helperEdit]) ++
      [eagleEdit, minEdit, logEdit]) t) :
    main (some t) = some
      (Edit.applyAll ((if isIn (joinLines guardLine) t then [] else [helperEdit]) ++
      [eagleEdit, minEdit, logEdit]) t) := by
  obtain ⟨-, heagle, hmin, hlog, -⟩ := Edit.findsOnce_append.mp h
  rw [eagleEdit, old_between] at heagle
  rw [minEdit, old_between] at hmin
  rw [logEdit, old_between] at hlog
  have hcount : ¬ count t (joinLines needle) ≠ 1 := not_not.mpr (count_of_occ_one hneedle)
  rw [main, hmark, if_neg Bool.false_ne_true, if_neg hcount, withHelper_eq, Edit.applyAll_append]
  simp only [Option.bind_eq_bind, Option.bind_some, replaceOnce_of_once heagle]
  rw [← eagleEdit, replaceOnce_of_once hmin, Option.bind_some, ← minEdit, replaceOnce_of_once hlog]
  rfl

/-- A file without the mark is complete after a success if the helper that it has, if any, is that
of the overlay. -/
theorem complete_of_unmarked {t t' : Text} (hmark : isIn mark t = false)
    (h : main (some t) = some t') :
    Complete t' ↔ (isIn (joinLines guardLine) t = true → joinLines helperCode <:+: t) := by
  obtain ⟨hput, hadds, hturn, -⟩ := edits_sound
  obtain ⟨-, t₁, h₁, h₂⟩ := main_patches hmark h
  have hhelper : joinLines helperCode <:+: t' ↔
      (isIn (joinLines guardLine) t = true → joinLines helperCode <:+: t) := by
    have hnew : joinLines helperCode <:+: helperEdit.new := by
      rw [helperEdit, new_between]
      exact (infix_of_isIn hput).trans (List.prefix_append _ _).isInfix
    rw [h₂.patches.infix_iff hadds, h₁.infix_optional hnew]
  obtain ⟨heagle, hmin, hlog⟩ : joinLines eagleNew <:+: t' ∧ joinLines minNew <:+: t' ∧
      joinLines logNew <:+: t' := by
    have := h₂.patches.new_within hturn
    simpa [eagleEdit, minEdit, logEdit, new_between] using this
  exact ⟨fun hcomplete => hhelper.mp hcomplete.helper,
    fun hguarded => ⟨hhelper.mpr hguarded, heagle, hmin, hlog⟩⟩

/-- When the file is complete after a success. -/
theorem complete_main_iff {t t' : Text} (h : main (some t) = some t') :
    Complete t' ↔ (isIn mark t = true → Complete t) ∧
      (isIn mark t = false → isIn (joinLines guardLine) t = true →
        joinLines helperCode <:+: t) := by
  cases hmark : isIn mark t with
  | true =>
    rw [main, if_pos hmark] at h
    cases h
    simp
  | false =>
    rw [complete_of_unmarked hmark h]
    simp

end Glm53Serve.Overlay.HybridPrefixHit
