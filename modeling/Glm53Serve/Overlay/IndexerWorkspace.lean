import Glm53Serve.Overlay.KpoolTailSlotmap
import Glm53Serve.Overlay.XgrammarTermination
import Mathlib

/-!
# Installing the right-sized workspace

`patch_indexer_workspace.py` replaces three texts of the indexer backend, two of which stay inside
what replaces them. It counts its markers over all three sites and checks each site before it is
written.

## What is proved

* `replaceSites_ok` — the loop replaces each anchor where it occurs once.
* `installers_preflighted` — what the four functions return is complete and stays, and stems from
  the source.
-/

namespace Glm53Serve.Overlay

open Py Occurrences

namespace IndexerWorkspace

/-! ### The texts -/

/-- `MARK_IMPORT`. -/
def markImport : List String :=
  ["import os  # [glm53-indexer-workspace] workspace mode env",
   ""]

/-- `ANCHOR_IMPORT`. -/
def anchorImport : List String :=
  ["# SPDX-FileCopyrightText: Copyright contributors to the vLLM project",
   "from dataclasses import dataclass",
   ""]

/-- `PATCHED_IMPORT`. -/
def patchedImport : List String :=
  ["# SPDX-FileCopyrightText: Copyright contributors to the vLLM project",
   "import os  # [glm53-indexer-workspace] workspace mode env",
   "from dataclasses import dataclass",
   ""]

/-- `MARK_SIZE`. -/
def markSize : List String :=
  ["    # [glm53-indexer-workspace] The workspace is sized in TOKENS but indexed in",
   ""]

/-- What `ANCHOR_SIZE` and its replacement have in common. -/
def sizeHead : List String :=
  ["def get_max_prefill_buffer_size(vllm_config: VllmConfig):",
   "    max_model_len = vllm_config.model_config.max_model_len",
   "    # NOTE(Chen): 40 is a magic number for controlling the prefill buffer size.",
   "    # Each entry is 128 fp8 bytes and 4 scale bytes for a total of 132 bytes.",
   "    # The flashmla_sparse backend uses a workspace size of 5 * max_model_len.",
   "    # The memory usage of the workspace there is 576 * 2 bytes; so we size this as",
   "    # (576 * 2 // 132) * 5 = 40 to maximize this workspace size while still fitting",
   "    # within the flashmla_sparse workspace.",
   "    # For DeepSeek-V3.2, the max_model_len is 163840.",
   "    #   40 * 163840 * 132 = 865075200 bytes = 825 MB"]

/-- `ANCHOR_SIZE`. -/
def anchorSize : List String := sizeHead ++ ["    return max_model_len * 40", ""]

/-- `HELPERS_SRC`: the mode. -/
def helpersMode : List String :=
  ["# [glm53-indexer-workspace] Opt-in right-sizing of the prefill gather",
   "# workspace. See overlay/patch_indexer_workspace.py and",
   "# docs/DESIGN-indexer-workspace.md in the recipe. Default is stock.",
   "_GLM53_WORKSPACE_ENV = \"GLM53_INDEXER_WORKSPACE\"",
   "",
   "",
   "def _glm53_workspace_mode() -> str:",
   "    \"\"\"Exactly \"stock\" or \"rightsize\"; an UNSET var means \"stock\".",
   "",
   "    Same contract as the launcher: start.sh runs",
   "    ``_glm53_validate_enum GLM53_INDEXER_WORKSPACE \"$\x7bGLM53_INDEXER_WORKSPACE-stock\x7d\"",
   "    stock rightsize``, which substitutes the default only when the var is",
   "    unset and then compares the value literally. So no normalisation here",
   "    either -- no strip, no lower, and \"\" is a value, not an absence.",
   "    \"RIGHTSIZE\", \" rightsize \" and \"\" are operator errors on both sides of the",
   "    container boundary, and must not silently select a serving mode.",
   "    \"\"\"",
   "    raw = os.environ.get(_GLM53_WORKSPACE_ENV)",
   "    if raw is None:",
   "        return \"stock\"",
   "    if raw not in (\"stock\", \"rightsize\"):",
   "        raise ValueError(",
   "            f\"\x7b_GLM53_WORKSPACE_ENV\x7d must be exactly one of: stock rightsize \"",
   "            f\"(got: \x7braw!r\x7d)\"",
   "        )",
   "    return raw",
   "",
   ""]

/-- `HELPERS_SRC`: the stock entries and the ratio. -/
def helpersStock : List String :=
  ["def _glm53_stock_workspace_entries(max_model_len: int) -> int:",
   "    return max_model_len * 40",
   "",
   "",
   "def _glm53_indexer_compress_ratio(vllm_config) -> int:",
   "    \"\"\"Indexer pool width from config only. 1 == no compression == no-op.\"\"\"",
   "    hf = getattr(vllm_config.model_config, \"hf_text_config\", None)",
   "    raw = getattr(hf, \"index_kpool\", None) if hf is not None else None",
   "    try:",
   "        ratio = int(raw or 1)",
   "    except (TypeError, ValueError):",
   "        return 1",
   "    return ratio if ratio > 1 else 1",
   "",
   ""]

/-- `HELPERS_SRC`: the right-sized entries. -/
def helpersRightsized : List String :=
  ["def _glm53_rightsized_workspace_entries(vllm_config) -> int:",
   "    \"\"\"Legal maximum compressed N a single prefill step can require.",
   "",
   "    Never larger than the stock value: this is a narrowing only.",
   "    \"\"\"",
   "    max_model_len = int(vllm_config.model_config.max_model_len)",
   "    stock = _glm53_stock_workspace_entries(max_model_len)",
   "    ratio = _glm53_indexer_compress_ratio(vllm_config)",
   "    if ratio <= 1:",
   "        return stock",
   "    sched = vllm_config.scheduler_config",
   "    spec_cfg = getattr(vllm_config, \"speculative_config\", None)",
   "    num_spec = int(getattr(spec_cfg, \"num_speculative_tokens\", 0) or 0)",
   "    # Every prefill row costs at least one query token, so a step can carry at",
   "    # most this many prefill requests.",
   "    max_prefill_reqs = max(",
   "        1, min(int(sched.max_num_seqs), int(sched.max_num_batched_tokens))",
   "    )",
   "    # seq_lens_cpu_upper_bound may run ahead of max_model_len by the draft",
   "    # length on async-spec extend rows; cdiv because the consumer floors.",
   "    span = max_model_len + max(0, num_spec)",
   "    per_req = -(-span // ratio)",
   "    return min(per_req * max_prefill_reqs, stock)",
   "",
   ""]

/-- `PATCHED_SIZE`: why the sizing is changed. -/
def sizeComment : List String :=
  ["    # [glm53-indexer-workspace] The workspace is sized in TOKENS but indexed in",
   "    # POOLS: split_indexer_prefill_chunks above is fed seq_lens // compress_ratio",
   "    # by the metadata builder, and models/deepseek_v4/attention.py already",
   "    # divides this return value by compress_ratio at its call site --",
   "    # models/glm5next/nvidia/attention.py does not. At max_model_len=1e6 the",
   "    # stock value is 40,000,000 entries; a 2026-09-01 VLLM_DEBUG_WORKSPACE boot",
   "    # measured the resulting lock at 5036.40 MB, inside the memory profile and",
   "    # therefore straight out of the KV pool.",
   "    #",
   "    # \"rightsize\" returns the LEGAL MAXIMUM a single step can need, so the",
   "    # workspace constraint in the splitter binds exactly where it already did",
   "    # and the chunk list is unchanged. It never exceeds the stock value.",
   "    # Default is stock: an unset env var is byte-for-byte the expression below."]

/-- `PATCHED_SIZE`: the sizing. -/
def sizeCode : List String :=
  ["    _glm53_stock = _glm53_stock_workspace_entries(max_model_len)",
   "    if _glm53_workspace_mode() != \"rightsize\":",
   "        return _glm53_stock",
   "    _glm53_entries = _glm53_rightsized_workspace_entries(vllm_config)",
   "    if _glm53_entries >= _glm53_stock:",
   "        # The legal maximum is already above stock: stock is under-sized here",
   "        # to begin with. Return it unchanged rather than growing the profile.",
   "        logger.warning(",
   "            \"[glm53-indexer-workspace] legal max %d entries >= stock %d; \"",
   "            \"keeping stock sizing\",",
   "            _glm53_entries,",
   "            _glm53_stock,",
   "        )",
   "        return _glm53_stock",
   "    logger.info(",
   "        \"[glm53-indexer-workspace] rightsize: compress_ratio=%d \"",
   "        \"max_num_seqs=%d max_num_batched_tokens=%d -> %d entries \"",
   "        \"(stock %d, ~%.1f MiB reclaimed at 132 B/entry)\",",
   "        _glm53_indexer_compress_ratio(vllm_config),",
   "        vllm_config.scheduler_config.max_num_seqs,",
   "        vllm_config.scheduler_config.max_num_batched_tokens,",
   "        _glm53_entries,",
   "        _glm53_stock,",
   "        (_glm53_stock - _glm53_entries) * 132 / (1024 * 1024),",
   "    )",
   "    return _glm53_entries",
   ""]

/-- `PATCHED_SIZE`. -/
def patchedSize : List String :=
  helpersMode ++ helpersStock ++ helpersRightsized ++ sizeHead ++ sizeComment ++ sizeCode

/-- `MARK_GUARD`. -/
def markGuard : List String :=
  ["        # [glm53-indexer-workspace] The sizing above ran against",
   ""]

/-- What `ANCHOR_GUARD` and its replacement have in common. -/
def guardHead : List String :=
  ["        # KV compression. Default to 1 for no compression.",
   "        self.compress_ratio = 1",
   "        # Get compress_ratio for DeepseekV4 support",
   "        if isinstance(self.kv_cache_spec, MLAAttentionSpec):",
   "            self.compress_ratio = self.kv_cache_spec.compress_ratio",
   "        if self.dcp_world_size > 1 and self.compress_ratio > 1:",
   "            raise NotImplementedError(",
   "                \"DCP is not supported with sparse indexer KV compression \"",
   "                f\"(compress_ratio=\x7bself.compress_ratio\x7d).\"",
   "            )"]

/-- `ANCHOR_GUARD`. -/
def anchorGuard : List String := guardHead ++ [""]

/-- `PATCHED_GUARD`: why the ratios are compared. -/
def guardComment : List String :=
  ["        # [glm53-indexer-workspace] The sizing above ran against",
   "        # hf_text_config.index_kpool, because get_max_prefill_buffer_size only",
   "        # receives vllm_config. THIS is the authoritative ratio: the runtime",
   "        # divides seq_lens by self.compress_ratio before handing them to the",
   "        # splitter. They are the same number by construction",
   "        # (models/glm5next/nvidia/attention.py replaces the indexer spec with",
   "        # compress_ratio=index_kpool), but construction is not a check. Fail at",
   "        # init, on every TP rank, rather than at the first oversized step.",
   "        #",
   "        # The comparison is UNCONDITIONAL in rightsize mode, in both",
   "        # directions. Guarding it on self.compress_ratio > 1 would skip the one",
   "        # case that actually under-sizes: index_kpool=4 with",
   "        # kv_cache_spec.compress_ratio=1 sizes the workspace for ~4M compressed",
   "        # entries while the runtime hands the splitter up to ~16M token",
   "        # entries. The mirror case (index_kpool absent/1 with compress_ratio>1)",
   "        # sizes at stock and so cannot under-run, but it still means the two",
   "        # config sources disagree about the model being served, which is not a",
   "        # state to serve rightsize from."]

/-- `PATCHED_GUARD`: the comparison. -/
def guardCode : List String :=
  ["        if _glm53_workspace_mode() == \"rightsize\":",
   "            _glm53_cfg_ratio = _glm53_indexer_compress_ratio(self.vllm_config)",
   "            if _glm53_cfg_ratio != self.compress_ratio:",
   "                raise ValueError(",
   "                    \"[glm53-indexer-workspace] compress-ratio disagreement: \"",
   "                    f\"hf_text_config.index_kpool=\x7b_glm53_cfg_ratio\x7d but \"",
   "                    f\"kv_cache_spec.compress_ratio=\x7bself.compress_ratio\x7d. \"",
   "                    \"Refusing to serve on a workspace sized from the wrong \"",
   "                    f\"ratio; unset \x7b_GLM53_WORKSPACE_ENV\x7d to use stock sizing.\"",
   "                )",
   "            _glm53_need = _glm53_rightsized_workspace_entries(self.vllm_config)",
   "            _glm53_stock = _glm53_stock_workspace_entries(",
   "                self.vllm_config.model_config.max_model_len",
   "            )",
   "            if self.max_prefill_buffer_size < min(_glm53_need, _glm53_stock):",
   "                raise ValueError(",
   "                    \"[glm53-indexer-workspace] workspace \"",
   "                    f\"\x7bself.max_prefill_buffer_size\x7d entries is below the legal \"",
   "                    f\"per-step maximum \x7b_glm53_need\x7d (compress_ratio=\"",
   "                    f\"\x7bself.compress_ratio\x7d, max_num_seqs=\"",
   "                    f\"\x7bself.vllm_config.scheduler_config.max_num_seqs\x7d).\"",
   "                )",
   "            logger.info(",
   "                \"[glm53-indexer-workspace] builder: compress_ratio=%d \"",
   "                \"workspace=%d entries (legal max %d, stock %d)\",",
   "                self.compress_ratio,",
   "                self.max_prefill_buffer_size,",
   "                _glm53_need,",
   "                _glm53_stock,",
   "            )",
   ""]

/-- `PATCHED_GUARD`. -/
def patchedGuard : List String := guardHead ++ guardComment ++ guardCode

/-! ### The installer -/

/-- A row of `SITES`. -/
structure Row where
  name : String
  mark : Text
  anchor : Text
  patched : Text

/-- `SITES`. -/
def rows : List Row :=
  [⟨"os import", joinLines markImport, joinLines anchorImport, joinLines patchedImport⟩,
   ⟨"workspace sizing", joinLines markSize, joinLines anchorSize, joinLines patchedSize⟩,
   ⟨"builder cross-check", joinLines markGuard, joinLines anchorGuard, joinLines patchedGuard⟩]

/-- `verified_state`. -/
def verifiedState (text : Text) : Bool :=
  rows.all fun row => count text row.mark == 1 && count text row.patched == 1 &&
    count text row.anchor == count row.patched row.anchor

/-- The loop over `SITES`. -/
def replaceSites : List Row → Text → Except ValueError Text
  | [], out => .ok out
  | row :: rows, out =>
    let n := count out row.anchor
    let name := row.name
    if n ≠ 1 then .error ⟨s!"pinned indexer anchor '{name}' drifted (found {n}, expected 1)"⟩
    else replaceSites rows (replaceFirst row.anchor row.patched out)

/-- `prepare`. -/
def prepare (source : Text) : Except ValueError (Text × Action) :=
  let marks := (rows.map fun row => count source row.mark).sum
  let expected := rows.length
  if marks ≠ 0 then
    if marks ≠ expected ∨ verifiedState source = false then
      .error ⟨"partial/inconsistent indexer workspace patch " ++
        s!"(marks={marks}, expected {expected}) -- refusing to touch a half-patched file"⟩
    else .ok (source, .alreadyPresent)
  else do
    let out ← replaceSites rows source
    if verifiedState out = false then .error ⟨"indexer workspace post-patch verification failed"⟩
    else .ok (out, .patched)

/-! ### What it does -/

def Row.site (row : Row) : Site := ⟨row.anchor, row.patched, row.patched⟩

def sites : List Site := rows.map Row.site

def sitesSound : List Text → Bool
  | [anchorImport, patchedImport, anchorSize, patchedSize, anchorGuard, patchedGuard] =>
    soundSites [⟨anchorImport, patchedImport, patchedImport⟩,
      ⟨anchorSize, patchedSize, patchedSize⟩,
      ⟨anchorGuard, patchedGuard, patchedGuard⟩]
  | _ => false

def texts : List (List String) :=
  [anchorImport, patchedImport, anchorSize, patchedSize, anchorGuard, patchedGuard]

set_option maxRecDepth 40000 in
theorem sitesSound_texts : sitesSound (texts.map joinLines) = true := by
  apply check_of_spelled sitesSound
  · unfold texts anchorImport patchedImport anchorSize patchedSize helpersMode helpersStock
      helpersRightsized sizeComment sizeCode sizeHead anchorGuard patchedGuard
        guardComment guardCode
      guardHead
    simp only [List.cons_append, List.nil_append]
    repeat (first
      | exact SpelledAll.nil | apply SpelledAll.cons | exact Spelled.nil | apply Spelled.cons)
  · decide +kernel

theorem sites_sound : soundSites sites = true := by
  have h := sitesSound_texts
  simp only [texts, List.map_cons, List.map_nil, sitesSound] at h
  exact h

theorem verified_sites {t : Text} (h : verifiedState t = true) : Verified sites t := by
  rw [verifiedState, List.all_eq_true] at h
  intro s hs
  obtain ⟨row, hrow, rfl⟩ := List.mem_map.mp hs
  have hcounts := h row hrow
  simp only [Bool.and_eq_true, beq_iff_eq] at hcounts
  refine ⟨hcounts.1.2, hcounts.2.trans ?_⟩
  exact count_eq_occ (borderless_of_sound sites_sound hs).2.1 row.patched

/-- A complete text has every marker. -/
theorem prepare_verified {t : Text} (h : verifiedState t = true) :
    prepare t = .ok (t, .alreadyPresent) := by
  have hmarks : rows.map (fun row => count t row.mark) = rows.map fun _ => 1 := by
    rw [verifiedState, List.all_eq_true] at h
    refine List.map_congr_left fun row hrow => ?_
    have hcounts := h row hrow
    simp only [Bool.and_eq_true, beq_iff_eq] at hcounts
    exact hcounts.1.1
  have hsum : (rows.map fun row => count t row.mark).sum = rows.length := by
    rw [hmarks]
    rfl
  simp only [prepare, hsum, h]
  rfl

/-- The loop replaces each anchor where it occurs once. -/
theorem replaceSites_ok {rows : List Row} {source t : Text} (h : replaceSites rows source = .ok t)
    (hrows : ∀ row ∈ rows, borderless row.anchor = true) :
    Edit.PatchesOnce (rows.map fun row => row.site.edit) source t := by
  induction rows generalizing source with
  | nil =>
    cases h
    exact Edit.PatchesOnce.nil _
  | cons row rows ih =>
    simp only [replaceSites] at h
    split_ifs at h with hone
    rw [ne_eq, Decidable.not_not] at hone
    have hreplaced : replaceOnce source row.anchor row.patched =
        some (replaceFirst row.anchor row.patched source) :=
      replaceOnce_eq_some.mpr ⟨hone, rfl⟩
    have hfirst := patchesOnce_of_replaceOnce (hrows row List.mem_cons_self) hreplaced
    exact hfirst.append (ih h fun row hrow => hrows row (List.mem_cons_of_mem _ hrow))

/-- What has been checked of a text that is returned. -/
theorem prepare_ok {source t : Text} {action : Action} (h : prepare source = .ok (t, action)) :
    verifiedState t = true ∧ Stems sites source t action := by
  simp only [prepare] at h
  split_ifs at h with hmarks hinconsistent
  · -- a marker is there
    cases h
    simp only [not_or, ne_eq, Decidable.not_not, Bool.not_eq_false] at hinconsistent
    exact ⟨hinconsistent.2, .inl ⟨by decide, rfl⟩⟩
  · cases hout : replaceSites rows source with
    | error e =>
      rw [hout] at h
      cases h
    | ok out =>
      rw [hout] at h
      change (if verifiedState out = false then _ else _) = _ at h
      split_ifs at h with hfailed
      cases h
      rw [Bool.not_eq_false] at hfailed
      refine ⟨hfailed, .inr ⟨rfl, ?_⟩⟩
      rw [sites, List.map_map]
      refine replaceSites_ok hout fun row hrow => ?_
      exact (borderless_of_sound sites_sound (List.mem_map_of_mem hrow)).2.1

theorem prepare_preflighted {source t : Text} {action : Action}
    (h : prepare source = .ok (t, action)) : Preflighted sites prepare source t action := by
  obtain ⟨hverified, hstems⟩ := prepare_ok h
  exact preflighted_of_verified sites_sound (verified_sites hverified)
    ⟨.alreadyPresent, by decide, prepare_verified hverified⟩ hstems

end IndexerWorkspace

/-- Each of the four functions fails, or returns a text that is complete and stays. -/
theorem installers_preflighted (source : Text) :
    Concludes XgrammarTermination.backendSites XgrammarTermination.prepareBackend source ∧
      Concludes XgrammarTermination.managerSites XgrammarTermination.prepareManager source ∧
      Concludes KpoolTailSlotmap.sites KpoolTailSlotmap.prepare source ∧
      Concludes IndexerWorkspace.sites IndexerWorkspace.prepare source := by
  refine ⟨?_, ?_, ?_, ?_⟩
  · exact concludes_of_preflighted fun _ _ => XgrammarTermination.prepareBackend_preflighted
  · exact concludes_of_preflighted fun _ _ => XgrammarTermination.prepareManager_preflighted
  · exact concludes_of_preflighted fun _ _ => KpoolTailSlotmap.prepare_preflighted
  · exact concludes_of_preflighted fun _ _ => IndexerWorkspace.prepare_preflighted

theorem installers_preflighted_anchor : ∃ t,
    KpoolTailSlotmap.prepare KpoolTailSlotmap.anchor = .ok (t, .patched) ∧
      Preflighted KpoolTailSlotmap.sites KpoolTailSlotmap.prepare KpoolTailSlotmap.anchor t
        .patched := by
  obtain ⟨-, -, ⟨e, he⟩ | ⟨t, action, ht, hpreflighted⟩, -⟩ :=
    installers_preflighted KpoolTailSlotmap.anchor
  · rw [KpoolTailSlotmap.prepare_anchor] at he
    cases he
  · obtain ⟨-, rfl⟩ := Prod.mk.inj (Except.ok.inj (ht.symm.trans KpoolTailSlotmap.prepare_anchor))
    exact ⟨t, ht, hpreflighted⟩

end Glm53Serve.Overlay
