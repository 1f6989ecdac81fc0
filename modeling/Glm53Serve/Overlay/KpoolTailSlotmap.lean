import Glm53Serve.Overlay.Preflight

/-!
# Installing the clamp of the tail slot map

`patch_kpool_tail_slotmap.py` puts a clamp behind the block index of the slot mapping.

## What is proved

* `prepare_preflighted` — what `prepare` returns is complete and stays, and stems from the source.
* `prepare_anchor` — the anchor alone is patched.
-/

namespace Glm53Serve.Overlay.KpoolTailSlotmap

open Py Occurrences

/-- `MARK`. -/
def markLines : List String :=
  ["    # [glm53-kpool-tail-slotmap] Never index past the request's",
   ""]

/-- `ANCHOR`. -/
def anchorLines : List String :=
  ["        block_indices = (",
   "            virtual_block_indices * BLOCKS_PER_KV_BLOCK",
   "            + local_block_offsets // block_size",
   "        )",
   "        block_numbers = tl.load(",
   "            block_table_ptr + row_offset + block_indices,",
   "            mask=mask & is_local,",
   "            other=0,",
   "        ).to(tl.int64)",
   ""]

/-- `PATCHED`. -/
def patchedLines : List String :=
  ["        block_indices = (",
   "            virtual_block_indices * BLOCKS_PER_KV_BLOCK",
   "            + local_block_offsets // block_size",
   "        )",
   "        # [glm53-kpool-tail-slotmap] Never index past the request's",
   "        # block-table row. KpoolTailSpec is a one-block circular scratch",
   "        # whose row is a single entry; without this clamp every token at",
   "        # pos >= block_size reads adjacent memory and the kpool kernels",
   "        # write through garbage. Clamping pins that group to entry 0:",
   "        # block_table[req, 0] * block_size + pos % block_size.",
   "        # For every other group this is identity.",
   "        block_indices = tl.minimum(block_indices, block_table_stride - 1)",
   "        block_numbers = tl.load(",
   "            block_table_ptr + row_offset + block_indices,",
   "            mask=mask & is_local,",
   "            other=0,",
   "        ).to(tl.int64)",
   ""]

/-- The clamp that is looked for by itself. -/
def clampLines : List String := ["tl.minimum(block_indices, block_table_stride - 1)"]

/-- `MARK`. -/
def mark : Text := joinLines markLines

/-- `ANCHOR`. -/
def anchor : Text := joinLines anchorLines

/-- `PATCHED`. -/
def patched : Text := joinLines patchedLines

/-- `verified_state`. -/
def verifiedState (text : Text) : Bool :=
  count text anchor == 0 && count text patched == 1 && count text mark == 1 &&
    isIn (joinLines clampLines) text

/-- `prepare`. -/
def prepare (source : Text) : Except ValueError (Text × Action) :=
  let marker := count source mark
  if marker ≠ 0 then
    if marker ≠ 1 ∨ verifiedState source = false then
      .error ⟨"partial/inconsistent kpool tail slot-map patch " ++ s!"(marker={marker})"⟩
    else .ok (source, .alreadyPresent)
  else if verifiedState source then .ok (source, .alreadyPatched)
  else
    let anchors := count source anchor
    if anchors ≠ 1 then
      .error ⟨"pinned block_table slot-mapping anchor drifted " ++ s!"(anchor={anchors})"⟩
    else if isIn (joinLines clampLines) source then
      .error ⟨"block_table already clamps block_indices but the pinned " ++
        "anchor was not found — re-derive the patch"⟩
    else
      let out := replaceFirst anchor patched source
      if verifiedState out = false then
        .error ⟨"kpool tail slot-map post-patch verification failed"⟩
      else .ok (out, .patched)

def sites : List Site := [⟨anchor, patched, patched⟩]

def sitesSound : List Text → Bool
  | [anchor, patched] =>
    soundSites [⟨anchor, patched, patched⟩] && leaveNoAnchor [⟨anchor, patched, patched⟩]
  | _ => false

set_option maxRecDepth 20000 in
theorem sitesSound_texts : sitesSound ([anchorLines, patchedLines].map joinLines) = true := by
  apply check_of_spelled sitesSound
  · unfold anchorLines patchedLines
    repeat (first
      | exact SpelledAll.nil | apply SpelledAll.cons | exact Spelled.nil | apply Spelled.cons)
  · decide +kernel

theorem sites_sound : soundSites sites = true ∧ leaveNoAnchor sites = true := by
  have h := sitesSound_texts
  simp only [List.map_cons, List.map_nil, sitesSound, Bool.and_eq_true] at h
  exact h

theorem verified_sites {t : Text} (h : verifiedState t = true) : Verified sites t := by
  simp only [verifiedState, Bool.and_eq_true, beq_iff_eq] at h
  refine verified_of_counts sites_sound.2 ?_
  rw [sites, List.forall_mem_singleton]
  exact ⟨h.1.1.2, h.1.1.1⟩

/-- A complete text has the marker. -/
theorem prepare_verified {t : Text} (h : verifiedState t = true) :
    prepare t = .ok (t, .alreadyPresent) := by
  have hmark : count t mark = 1 := by
    simp only [verifiedState, Bool.and_eq_true, beq_iff_eq] at h
    exact h.1.2
  simp only [prepare, hmark, h]
  rfl

/-- What has been checked of a text that is returned. -/
theorem prepare_ok {source t : Text} {action : Action} (h : prepare source = .ok (t, action)) :
    verifiedState t = true ∧ Stems sites source t action := by
  simp only [prepare] at h
  split_ifs at h with hmark hinconsistent hpatched hanchor hclamp hfailed
  · -- the marker is there
    cases h
    simp only [not_or, ne_eq, Decidable.not_not, Bool.not_eq_false] at hinconsistent
    exact ⟨hinconsistent.2, .inl ⟨by decide, rfl⟩⟩
  · cases h
    exact ⟨hpatched, .inl ⟨by decide, rfl⟩⟩
  · cases h
    rw [Bool.not_eq_false] at hfailed
    rw [ne_eq, Decidable.not_not] at hanchor
    refine ⟨hfailed, .inr ⟨rfl, findsOnce_of_counts sites_sound.1 ?_, ?_⟩⟩
    · rw [sites, List.forall_mem_singleton]
      exact hanchor
    · rw [sites, applyAll_sites]
      exact List.foldl_nil

theorem prepare_preflighted {source t : Text} {action : Action}
    (h : prepare source = .ok (t, action)) : Preflighted sites prepare source t action := by
  obtain ⟨hverified, hstems⟩ := prepare_ok h
  exact preflighted_of_verified sites_sound.1 (verified_sites hverified)
    ⟨.alreadyPresent, by decide, prepare_verified hverified⟩ hstems

/-! ### A text that is patched -/

/-- Whether the counts of the anchor are those of a text to patch, and those of what it becomes the
right ones. -/
def patchesAnchor : List Text → Bool
  | [mark, anchor, patched, clamp] =>
    let out := replaceFirst anchor patched anchor
    count anchor mark == 0 && count anchor patched == 0 && count anchor anchor == 1 &&
      !isIn clamp anchor &&
      (count out anchor == 0 && count out patched == 1 && count out mark == 1 && isIn clamp out)
  | _ => false

set_option maxRecDepth 20000 in
theorem patchesAnchor_texts :
    patchesAnchor ([markLines, anchorLines, patchedLines, clampLines].map joinLines) = true := by
  apply check_of_spelled patchesAnchor
  · unfold markLines anchorLines patchedLines clampLines
    repeat (first
      | exact SpelledAll.nil | apply SpelledAll.cons | exact Spelled.nil | apply Spelled.cons)
  · decide +kernel

/-- The anchor alone is patched. -/
theorem prepare_anchor : prepare anchor = .ok (replaceFirst anchor patched anchor, .patched) := by
  have h := patchesAnchor_texts
  simp only [List.map_cons, List.map_nil, patchesAnchor, Bool.and_eq_true, beq_iff_eq,
    Bool.not_eq_true'] at h
  obtain ⟨⟨⟨⟨hmark, hpatched⟩, hanchor⟩, hclamp⟩, hout⟩ := h
  have hnew : verifiedState anchor = false := by
    rw [verifiedState, patched, anchor, hpatched]
    simp
  have hverified : verifiedState (replaceFirst anchor patched anchor) = true := by
    simp only [verifiedState, Bool.and_eq_true, beq_iff_eq]
    exact hout
  rw [← mark, ← anchor] at hmark
  rw [← anchor] at hanchor hclamp
  simp [prepare, hmark, hnew, hanchor, hclamp, hverified]

end Glm53Serve.Overlay.KpoolTailSlotmap
