import Glm53Serve.Lib.Windows
import Glm53Serve.Py.Replace

/-!
# Installing the drafter group

`patch_glm5_drafter_group.py` edits a pristine file in fourteen places. A file with the marker is of
an earlier generation of the overlay: it may reject padded drafters, and its drafter group may have
the block of the first generation, the compact one of the second, or the padded one.

## The model

`patch_file`, with the file as its text and `ast.parse` as a parameter: the error that it raises, or
none. What is printed is left out.

## What is proved

* `applyEdits_ok` — the loop makes each edit where its anchor occurs once.
* `compactCut_spec` — the parts that the third generation keeps of a text.
-/

namespace Glm53Serve.Overlay.DrafterGroup

open Py Occurrences

/-! ### The edits of a pristine file -/

/-- `MARKER`. -/
def markerText : List String := ["DFLASH2-DRAFTER-GROUP"]

/-- `EDIT_PARTITION_ANCHOR`. -/
def editPartitionAnchor : List String :=
  ["    attn_specs = \x7b",
   "        k: v",
   "        for k, v in kv_cache_spec.items()",
   "        if not isinstance(v, (MambaSpec, KpoolTailSpec))",
   "    \x7d",
   "    if not mamba_specs or not all(",
   "        type(s) is MLAAttentionSpec for s in attn_specs.values()",
   "    ):",
   "        return None",
   ""]

/-- `EDIT_PARTITION_NEW`. -/
def editPartitionNew : List String :=
  ["    # DFLASH2-DRAFTER-GROUP: a spec-decode drafter (DFlash2) adds plain",
   "    # SlidingWindowSpec layers on top of the GLM-5-Next hybrid. Partition them",
   "    # out (exact type: KpoolTailSpec subclasses SlidingWindowSpec) so they do",
   "    # not disqualify the model from this fast path; they are appended as one",
   "    # extra group below.",
   "    draft_specs = \x7b",
   "        k: v for k, v in kv_cache_spec.items() if type(v) is SlidingWindowSpec",
   "    \x7d",
   "    attn_specs = \x7b",
   "        k: v",
   "        for k, v in kv_cache_spec.items()",
   "        if not isinstance(v, (MambaSpec, KpoolTailSpec))",
   "        and type(v) is not SlidingWindowSpec",
   "    \x7d",
   "    if not mamba_specs or not all(",
   "        type(s) is MLAAttentionSpec for s in attn_specs.values()",
   "    ):",
   "        return None",
   ""]

/-- `EDIT_GROUPS_RETURN_ANCHOR`. -/
def editGroupsReturnAnchor : List String :=
  ["    mamba_grouped_names: list[list[str]] = [[] for _ in range(num_groups)]",
   "    for k, name in enumerate(mamba_specs):",
   "        mamba_grouped_names[k % num_groups].append(name)",
   "    return (",
   "        [KVCacheGroupSpec(list(attn_specs), uniform_spec)]",
   "        + ([tail_group] if tail_group is not None else [])",
   "        + create_kv_cache_group_specs(padded_specs, mamba_grouped_names)",
   "    )",
   ""]

/-- `EDIT_GROUPS_RETURN_NEW`: the specs of the drafter. -/
def groupsReturnSpecs : List String :=
  ["    mamba_grouped_names: list[list[str]] = [[] for _ in range(num_groups)]",
   "    for k, name in enumerate(mamba_specs):",
   "        mamba_grouped_names[k % num_groups].append(name)",
   "",
   "    # Drafter group (DFLASH2-DRAFTER-GROUP): one extra group for the spec-",
   "    # decode drafter's SlidingWindowSpec layers, appended LAST so existing",
   "    # group ids stay stable. NEVER page_size_padded: a padded spec routes the",
   "    # runner into the strided-view reshape, which is invalid when the backend",
   "    # virtually splits the manager block into smaller kernel blocks (boot 8:",
   "    # FlashInfer picked kernel block 64 for a 2304-token manager block and",
   "    # the per-KERNEL-block page stride blew past the tensor). Both modes",
   "    # below use the ordinary contiguous reshape, valid under any split.",
   "    draft_group = None",
   "    if draft_specs:",
   "        any_draft = next(iter(draft_specs.values()))",
   "        assert all(spec == any_draft for spec in draft_specs.values()), (",
   "            \"drafter SlidingWindowSpec layers must share one spec\"",
   "        )"]

/-- `EDIT_GROUPS_RETURN_NEW`: the exact fit. -/
def groupsReturnFit : List String :=
  ["        draft_bytes_per_token = any_draft.page_size_bytes // any_draft.block_size",
   "        mla_block = mla_specs[mla_names[0]].block_size",
   "        fit_block = (",
   "            mla_page // draft_bytes_per_token",
   "            if mla_page % draft_bytes_per_token == 0",
   "            else 0",
   "        )",
   "        if (",
   "            fit_block",
   "            # A 64-divisible manager block is divisible by every int kernel",
   "            # block size the SWA backends register (16/32/64), so",
   "            # select_common_block_size always finds a clean split.",
   "            and fit_block % 64 == 0",
   "            # Keep resolve_kv_cache_block_sizes' scheduler LCM at",
   "            # max(mla_block, fit_block) instead of exploding.",
   "            and (fit_block % mla_block == 0 or mla_block % fit_block == 0)",
   "            and len(draft_specs) <= len(mla_names)",
   "        ):",
   "            # EXACT FIT: the drafter's real page equals the MLA page, so",
   "            # drafter layer i co-owns MLA tensor i at disjoint block ids",
   "            # (like mamba) with a contiguous view: kernel block j of manager",
   "            # block b lands at b * mla_page + j * kernel_page, inside block",
   "            # b's own page. Per-block pool cost unchanged.",
   "            logger.info(",
   "                \"DFlash2 drafter KV: exact-fit block=%d mla_page=%d\",",
   "                fit_block,",
   "                mla_page,",
   "            )",
   "            new_draft_specs: dict[str, KVCacheSpec] = \x7b",
   "                name: replace(s, block_size=fit_block)",
   "                for name, s in draft_specs.items()",
   "            \x7d",
   "        else:"]

/-- The padded slot-share block. -/
def paddedLines : List String :=
  ["            # PADDED SLOT-SHARE: 656 vs 4096 cannot exact-fill on this MLA",
   "            # block. Manager 64 matches the SWA kernel, so padding the page",
   "            # to mla_page is a safe strided view (boot 8 OOB was kernel 64",
   "            # inside a 2304-token manager). Layer i co-owns MLA tensor i.",
   "            compact_block = 64",
   "            logger.info(",
   "                \"DFlash2 drafter KV: padded slot-share block=%d \"",
   "                \"mla_page=%d (was block=%d); exact-fit page mismatch \"",
   "                \"draft_bytes/token=%d\",",
   "                compact_block,",
   "                mla_page,",
   "                any_draft.block_size,",
   "                draft_bytes_per_token,",
   "            )",
   "            new_draft_specs = \x7b",
   "                name: replace(",
   "                    s,",
   "                    block_size=compact_block,",
   "                    page_size_padded=mla_page,",
   "                )",
   "                for name, s in draft_specs.items()",
   "            \x7d"]

/-- `EDIT_GROUPS_RETURN_NEW`: the group. -/
def groupsReturnTail : List String :=
  ["        draft_uniform = UniformTypeKVCacheSpecs.from_specs(new_draft_specs)",
   "        assert draft_uniform is not None",
   "        draft_group = KVCacheGroupSpec(list(new_draft_specs), draft_uniform)",
   "",
   "    return (",
   "        [KVCacheGroupSpec(list(attn_specs), uniform_spec)]",
   "        + ([tail_group] if tail_group is not None else [])",
   "        + create_kv_cache_group_specs(padded_specs, mamba_grouped_names)",
   "        + ([draft_group] if draft_group is not None else [])",
   "    )",
   ""]

/-- `EDIT_GROUPS_RETURN_NEW`. -/
def editGroupsReturnNew : List String :=
  groupsReturnSpecs ++ groupsReturnFit ++ paddedLines ++ groupsReturnTail

/-- `EDIT_LAYOUT_ANNOT_ANCHOR`. -/
def editLayoutAnnotAnchor : List String :=
  ["        list[str],",
   "        int,",
   "    ]",
   "    | None",
   "):",
   ""]

/-- `EDIT_LAYOUT_ANNOT_NEW`. -/
def editLayoutAnnotNew : List String :=
  ["        list[str],",
   "        int,",
   "        KVCacheGroupSpec | None,",
   "    ]",
   "    | None",
   "):",
   ""]

/-- `EDIT_LAYOUT_DOC_ANCHOR`. -/
def editLayoutDocAnchor : List String :=
  ["      - (attn_group, mamba_groups, mla_names, idx_names, mla_page, idx_page,",
   "         tail_names, tail_page)",
   ""]

/-- `EDIT_LAYOUT_DOC_NEW`. -/
def editLayoutDocNew : List String :=
  ["      - (attn_group, mamba_groups, mla_names, idx_names, mla_page, idx_page,",
   "         tail_names, tail_page, draft_group)",
   ""]

/-- `EDIT_LAYOUT_DETECT_ANCHOR`. -/
def editLayoutDetectAnchor : List String :=
  ["    attn_group: KVCacheGroupSpec | None = None",
   "    tail_group: KVCacheGroupSpec | None = None",
   "    for g in uniform_groups:",
   "        group_inner = cast(UniformTypeKVCacheSpecs, g.kv_cache_spec).kv_cache_specs",
   "        if all(type(s) is MLAAttentionSpec for s in group_inner.values()):",
   "            attn_group = g",
   "        elif all(isinstance(s, KpoolTailSpec) for s in group_inner.values()):",
   "            tail_group = g",
   ""]

/-- `EDIT_LAYOUT_DETECT_NEW`. -/
def editLayoutDetectNew : List String :=
  ["    attn_group: KVCacheGroupSpec | None = None",
   "    tail_group: KVCacheGroupSpec | None = None",
   "    draft_group: KVCacheGroupSpec | None = None",
   "    for g in uniform_groups:",
   "        group_inner = cast(UniformTypeKVCacheSpecs, g.kv_cache_spec).kv_cache_specs",
   "        if all(type(s) is MLAAttentionSpec for s in group_inner.values()):",
   "            attn_group = g",
   "        elif all(isinstance(s, KpoolTailSpec) for s in group_inner.values()):",
   "            tail_group = g",
   "        elif group_inner and all(",
   "            type(s) is SlidingWindowSpec for s in group_inner.values()",
   "        ):",
   "            # DFLASH2-DRAFTER-GROUP: the spec-decode drafter's SWA group",
   "            # (validated below once mla_page is known).",
   "            draft_group = g",
   ""]

/-- `EDIT_LAYOUT_VALIDATE_ANCHOR`. -/
def editLayoutValidateAnchor : List String :=
  ["    if any(g.kv_cache_spec.page_size_bytes != mla_page for g in mamba_groups):",
   "        return None",
   "    tail_names: list[str] = []",
   ""]

/-- `EDIT_LAYOUT_VALIDATE_NEW`. -/
def editLayoutValidateNew : List String :=
  ["    if any(g.kv_cache_spec.page_size_bytes != mla_page for g in mamba_groups):",
   "        return None",
   "    if draft_group is not None:",
   "        # DFLASH2-DRAFTER-GROUP: one uniform page across drafter layers.",
   "        # Padded slot-share (page_size_padded=mla_page, block=64) is valid",
   "        # because manager==kernel so the strided view does not split a page.",
   "        # page == mla_page means slot-sharing of the MLA tensors",
   "        # (needs one tensor per drafter layer); any other page means",
   "        # standalone drafter tensors.",
   "        draft_inner = cast(",
   "            UniformTypeKVCacheSpecs, draft_group.kv_cache_spec",
   "        ).kv_cache_specs",
   "        draft_pages = \x7bs.page_size_bytes for s in draft_inner.values()\x7d",
   "        if len(draft_pages) != 1:",
   "            return None",
   "        if any(s.page_size_padded is not None for s in draft_inner.values()):",
   "            if any(",
   "                s.block_size != 64 or s.page_size_padded != mla_page",
   "                for s in draft_inner.values()",
   "            ):",
   "                return None",
   "        if (",
   "            draft_pages.pop() == mla_page",
   "            and len(draft_group.layer_names) > len(mla_names)",
   "        ):",
   "            return None",
   "    tail_names: list[str] = []",
   ""]

/-- `EDIT_LAYOUT_RETURN_ANCHOR`. -/
def editLayoutReturnAnchor : List String :=
  ["    return (",
   "        attn_group,",
   "        mamba_groups,",
   "        mla_names,",
   "        idx_names,",
   "        mla_page,",
   "        idx_pages.pop(),",
   "        tail_names,",
   "        tail_page,",
   "    )",
   ""]

/-- `EDIT_LAYOUT_RETURN_NEW`. -/
def editLayoutReturnNew : List String :=
  ["    return (",
   "        attn_group,",
   "        mamba_groups,",
   "        mla_names,",
   "        idx_names,",
   "        mla_page,",
   "        idx_pages.pop(),",
   "        tail_names,",
   "        tail_page,",
   "        draft_group,",
   "    )",
   ""]

/-- `EDIT_POOL_BYTES_ANCHOR`. -/
def editPoolBytesAnchor : List String :=
  ["        _, _, mla_names, idx_names, mla_page, idx_page, _, _ = glm5",
   "        return len(mla_names) * mla_page + len(idx_names) * idx_page",
   ""]

/-- `EDIT_POOL_BYTES_NEW`. -/
def editPoolBytesNew : List String :=
  ["        # DFLASH2-DRAFTER-GROUP: an exact-fit drafter (page == mla_page)",
   "        # slot-shares the MLA tensors and adds no bytes; a standalone drafter",
   "        # adds one page per drafter layer.",
   "        _, _, mla_names, idx_names, mla_page, idx_page, _, _, draft_group = glm5",
   "        per_block = len(mla_names) * mla_page + len(idx_names) * idx_page",
   "        if draft_group is not None:",
   "            draft_page = next(",
   "                iter(",
   "                    cast(",
   "                        UniformTypeKVCacheSpecs, draft_group.kv_cache_spec",
   "                    ).kv_cache_specs.values()",
   "                )",
   "            ).page_size_bytes",
   "            if draft_page != mla_page:",
   "                per_block += len(draft_group.layer_names) * draft_page",
   "        return per_block",
   ""]

/-- `EDIT_CONFIG_DESTRUCTURE_ANCHOR`. -/
def editConfigDestructureAnchor : List String :=
  ["        (",
   "            _,",
   "            mamba_groups,",
   "            mla_names,",
   "            idx_names,",
   "            mla_page,",
   "            idx_page,",
   "            tail_names,",
   "            _tail_page,",
   "        ) = glm5n",
   ""]

/-- `EDIT_CONFIG_DESTRUCTURE_NEW`. -/
def editConfigDestructureNew : List String :=
  ["        (",
   "            _,",
   "            mamba_groups,",
   "            mla_names,",
   "            idx_names,",
   "            mla_page,",
   "            idx_page,",
   "            tail_names,",
   "            _tail_page,",
   "            draft_group,",
   "        ) = glm5n",
   "        draft_names: list[str] = []",
   "        draft_page = 0",
   "        draft_shared = False",
   "        if draft_group is not None:",
   "            draft_names = list(draft_group.layer_names)",
   "            draft_page = next(",
   "                iter(",
   "                    cast(",
   "                        UniformTypeKVCacheSpecs, draft_group.kv_cache_spec",
   "                    ).kv_cache_specs.values()",
   "                )",
   "            ).page_size_bytes",
   "            # Exact fit: the drafter's real page equals the MLA page, so it",
   "            # rides the MLA tensors; otherwise it gets standalone tensors.",
   "            draft_shared = draft_page == mla_page",
   ""]

/-- `EDIT_CONFIG_PER_BLOCK_ANCHOR`. -/
def editConfigPerBlockAnchor : List String :=
  ["        per_block = len(mla_names) * mla_page + len(idx_names) * idx_page",
   "        num_blocks = available_memory // per_block",
   ""]

/-- `EDIT_CONFIG_PER_BLOCK_NEW`. -/
def editConfigPerBlockNew : List String :=
  ["        per_block = len(mla_names) * mla_page + len(idx_names) * idx_page",
   "        if draft_names and not draft_shared:",
   "            # DFLASH2-DRAFTER-GROUP (standalone): drafter tensors are part of",
   "            # every block's byte cost.",
   "            per_block += len(draft_names) * draft_page",
   "        num_blocks = available_memory // per_block",
   ""]

/-- `EDIT_CONFIG_SHARED_BY_ANCHOR`. -/
def editConfigSharedByAnchor : List String :=
  ["                shared_by=[mla_name]",
   "                + [g.layer_names[i] for g in mamba_groups if i < len(g.layer_names)],",
   "            )",
   "            for i, mla_name in enumerate(mla_names)",
   ""]

/-- `EDIT_CONFIG_SHARED_BY_NEW`. -/
def editConfigSharedByNew : List String :=
  ["                shared_by=[mla_name]",
   "                + [g.layer_names[i] for g in mamba_groups if i < len(g.layer_names)]",
   "                # DFLASH2-DRAFTER-GROUP (exact fit): drafter layer i rides MLA",
   "                # tensor i (contiguous view, disjoint block ids), like mamba.",
   "                + ([draft_names[i]] if draft_shared and i < len(draft_names) else []),",
   "            )",
   "            for i, mla_name in enumerate(mla_names)",
   ""]

/-- `EDIT_CONFIG_DRAFT_TENSORS_ANCHOR`. -/
def editConfigDraftTensorsAnchor : List String :=
  ["            KVCacheTensor(",
   "                size=idx_page * num_blocks,",
   "                shared_by=(",
   "                    [idx_names[i], tail_names[i]] if tail_names else [idx_names[i]]",
   "                ),",
   "            )",
   "            for i in range(len(idx_names))",
   "        ]",
   ""]

/-- `EDIT_CONFIG_DRAFT_TENSORS_NEW`. -/
def editConfigDraftTensorsNew : List String :=
  ["            KVCacheTensor(",
   "                size=idx_page * num_blocks,",
   "                shared_by=(",
   "                    [idx_names[i], tail_names[i]] if tail_names else [idx_names[i]]",
   "                ),",
   "            )",
   "            for i in range(len(idx_names))",
   "        ] + [",
   "            # DFLASH2-DRAFTER-GROUP (standalone): compact per-layer drafter",
   "            # tensors; contiguous reshape, safe under kernel block splitting.",
   "            KVCacheTensor(size=draft_page * num_blocks, shared_by=[name])",
   "            for name in ([] if draft_shared else draft_names)",
   "        ]",
   ""]

/-- `EDIT_MAXMEM_DESTRUCTURE_ANCHOR`. -/
def editMaxmemDestructureAnchor : List String :=
  ["        (",
   "            attn_group,",
   "            mamba_groups,",
   "            mla_names,",
   "            idx_names,",
   "            mla_page,",
   "            idx_page,",
   "            tail_names,",
   "            _tail_page,",
   "        ) = glm5n",
   ""]

/-- `EDIT_MAXMEM_DESTRUCTURE_NEW`. -/
def editMaxmemDestructureNew : List String :=
  ["        (",
   "            attn_group,",
   "            mamba_groups,",
   "            mla_names,",
   "            idx_names,",
   "            mla_page,",
   "            idx_page,",
   "            tail_names,",
   "            _tail_page,",
   "            draft_group,",
   "        ) = glm5n",
   ""]

/-- `EDIT_MAXMEM_BLOCKS_ANCHOR`. -/
def editMaxmemBlocksAnchor : List String :=
  ["        if tail_names:",
   "            # Tail: 1 block/req (KpoolTailSpec.max_admission_blocks_per_request",
   "            # == 1), drawn from the shared pool.",
   "            blocks_needed += 1",
   "        return blocks_needed * (len(mla_names) * mla_page + len(idx_names) * idx_page)",
   ""]

/-- `EDIT_MAXMEM_BLOCKS_NEW`. -/
def editMaxmemBlocksNew : List String :=
  ["        if tail_names:",
   "            # Tail: 1 block/req (KpoolTailSpec.max_admission_blocks_per_request",
   "            # == 1), drawn from the shared pool.",
   "            blocks_needed += 1",
   "        per_block = len(mla_names) * mla_page + len(idx_names) * idx_page",
   "        if draft_group is not None:",
   "            # DFLASH2-DRAFTER-GROUP: charge the drafter's window-bounded",
   "            # block-id demand; a standalone drafter also adds its pages to",
   "            # every block's byte cost (an exact-fit one rides the MLA",
   "            # tensors and adds none).",
   "            draft_uniform = draft_group.kv_cache_spec",
   "            assert isinstance(draft_uniform, UniformTypeKVCacheSpecs)",
   "            blocks_needed += draft_uniform.max_memory_usage_pages(vllm_config)",
   "            draft_page = next(",
   "                iter(draft_uniform.kv_cache_specs.values())",
   "            ).page_size_bytes",
   "            if draft_page != mla_page:",
   "                per_block += len(draft_group.layer_names) * draft_page",
   "        return blocks_needed * per_block",
   ""]

/-- A row of `EDITS`. -/
structure AnchoredEdit where
  name : String
  anchor : Text
  replacement : Text

/-- `EDITS`. -/
def edits : List AnchoredEdit :=
  [⟨"groups: partition drafter SlidingWindowSpec layers out",
     joinLines editPartitionAnchor, joinLines editPartitionNew⟩,
   ⟨"groups: build + append drafter group (exact-fit / standalone)",
     joinLines editGroupsReturnAnchor, joinLines editGroupsReturnNew⟩,
   ⟨"layout: return-type annotation gains draft_group",
     joinLines editLayoutAnnotAnchor, joinLines editLayoutAnnotNew⟩,
   ⟨"layout: docstring Returns gains draft_group",
     joinLines editLayoutDocAnchor, joinLines editLayoutDocNew⟩,
   ⟨"layout: detect drafter SWA uniform group",
     joinLines editLayoutDetectAnchor, joinLines editLayoutDetectNew⟩,
   ⟨"layout: validate drafter (uniform page, never padded)",
     joinLines editLayoutValidateAnchor, joinLines editLayoutValidateNew⟩,
   ⟨"layout: return draft_group (9th element)",
     joinLines editLayoutReturnAnchor, joinLines editLayoutReturnNew⟩,
   ⟨"_pool_bytes_per_block: standalone drafter bytes",
     joinLines editPoolBytesAnchor, joinLines editPoolBytesNew⟩,
   ⟨"config: destructure + drafter mode",
     joinLines editConfigDestructureAnchor, joinLines editConfigDestructureNew⟩,
   ⟨"config: per-block cost includes standalone drafter",
     joinLines editConfigPerBlockAnchor, joinLines editConfigPerBlockNew⟩,
   ⟨"config: exact-fit drafter layer i co-owns MLA tensor i",
     joinLines editConfigSharedByAnchor, joinLines editConfigSharedByNew⟩,
   ⟨"config: standalone drafter tensors",
     joinLines editConfigDraftTensorsAnchor, joinLines editConfigDraftTensorsNew⟩,
   ⟨"max-mem: destructure gains draft_group",
     joinLines editMaxmemDestructureAnchor, joinLines editMaxmemDestructureNew⟩,
   ⟨"max-mem: charge drafter block-id demand + standalone bytes",
     joinLines editMaxmemBlocksAnchor, joinLines editMaxmemBlocksNew⟩]

/-! ### The texts of the earlier generations -/

/-- `v4_old`: padded drafters are rejected. -/
def v4OldText : List String :=
  ["        if any(s.page_size_padded is not None for s in draft_inner.values()):",
   "            return None",
   ""]

/-- `v4_new`. -/
def v4NewText : List String :=
  ["        if any(s.page_size_padded is not None for s in draft_inner.values()):",
   "            # Padded slot-share: manager block 64 so the kernel does not",
   "            # split the page (boot 8 OOB was kernel 64 in a 2304 manager).",
   "            if any(",
   "                s.block_size != 64 or s.page_size_padded != mla_page",
   "                for s in draft_inner.values()",
   "            ):",
   "                return None",
   ""]

/-- `v3_marker`. -/
def v3MarkerText : List String :=
  ["padded slot-share block=%d"]

/-- `new_padded`. -/
def newPaddedText : List String := paddedLines ++ [""]

/-- `v2_compact`. -/
def v2CompactText : List String :=
  ["            compact_block = 64",
   "            if any_draft.block_size > compact_block:",
   ""]

/-- What the compact block begins with. -/
def standaloneText : List String :=
  ["            # STANDALONE: compact per-layer tensors."]

/-- The statement behind the block. -/
def draftUniformText : List String :=
  ["        draft_uniform = UniformTypeKVCacheSpecs.from_specs(new_draft_specs)"]

/-- `old_standalone`. -/
def oldStandaloneText : List String :=
  ["            # STANDALONE: the drafter's geometry cannot exactly fill the MLA",
   "            # page; keep its spec as-is and give its layers compact tensors",
   "            # of their own (emitted in get_kv_cache_config_from_groups and",
   "            # charged in the per-block cost).",
   "            new_draft_specs = dict(draft_specs)",
   ""]

/-- `MARKER`. -/
def marker : Text := joinLines markerText

/-- `v4_old`. -/
def v4Old : Text := joinLines v4OldText

/-- `v4_new`. -/
def v4New : Text := joinLines v4NewText

/-- `v3_marker`. -/
def v3Marker : Text := joinLines v3MarkerText

/-- `new_padded`. -/
def newPadded : Text := joinLines newPaddedText

/-- `v2_compact`. -/
def v2Compact : Text := joinLines v2CompactText

/-- What the compact block begins with. -/
def standalone : Text := joinLines standaloneText

/-- The statement behind the block. -/
def draftUniform : Text := joinLines draftUniformText

/-- `old_standalone`. -/
def oldStandalone : Text := joinLines oldStandaloneText

/-- The names that a pristine file has to have. -/
def required : List String :=
  ["def _get_kv_cache_groups_glm5_next",
   "def _glm5_next_tensor_layout",
   "def _pool_bytes_per_block",
   "SlidingWindowSpec",
   "UniformTypeKVCacheSpecs"]

/-! ### The installer -/

/-- `AssertionError`. -/
structure AssertionError where
  message : String
  deriving DecidableEq

/-- What a run leaves: its error, if it raises one, and the text of the file. -/
abbrev Outcome := Except AssertionError Unit × Text

section
variable (path : String) (syntaxError : Text → Option String) (dryRun : Bool)

/-- The end of a run: the text is written, but in a dry run. -/
def write (file new : Text) : Outcome := (.ok (), if dryRun then file else new)

/-- A run ends with an error and leaves the file. -/
def fail (file : Text) (message : String) : Outcome := (.error ⟨message⟩, file)

/-- The text has to parse before the run goes on. -/
def checked (file new : Text) (next : Outcome) : Outcome :=
  match syntaxError new with
  | some e => fail file s!"POST-EDIT ast.parse FAILED for {path}: {e}"
  | none => next

/-- The loop over `EDITS`. -/
def applyEdits : List AnchoredEdit → Text → Except AssertionError Text
  | [], text => .ok text
  | e :: es, text =>
    let n := count text e.anchor
    let name := e.name
    let anchor := String.ofList e.anchor
    if n ≠ 1 then
      .error ⟨s!"ANCHOR FAILED for edit [{name}]: expected exactly 1 occurrence, " ++
        s!"found {n}. The upstream file has drifted -- re-derive the anchor " ++
        s!"before building.\n--- anchor ---\n{anchor}\n--------------"⟩
    else applyEdits es (replaceFirst e.anchor e.replacement text)

/-- `patch_file` of a file without the marker. -/
def patchPristine (text : Text) : Outcome :=
  match required.find? fun name => !isIn name.toList text with
  | some name => fail text <| s!"ANCHOR PRECHECK FAILED: '{name}' not found in {path} -- " ++
      "is this really vllm/v1/core/kv_cache_utils.py?"
  | none =>
    match applyEdits edits text with
    | .error e => (.error e, text)
    | .ok new => checked path syntaxError text new (write dryRun text new)

/-- What stands before the compact block and behind it. -/
def compactCut (text : Text) : Option (Text × Text) := do
  let start ← find text standalone 0
  let stop ← find text draftUniform 0
  if stop ≤ start then none else some (text.take start, text.drop stop)

/-- `patch_file` of a file with the marker whose text, as far as it has been changed already, lacks
the padded block. -/
def migrate (file text : Text) : Outcome :=
  if isIn v2Compact text then
    match compactCut text with
    | none => fail file <| s!"{path}: DFLASH2-DRAFTER-GROUP + compact_block present but cannot " ++
        "locate standalone block for padded slot-share v3"
    | some (before, after) =>
      let new := before ++ newPadded ++ after
      checked path syntaxError file new (write dryRun file new)
  else if isIn oldStandalone text then
    let new := replaceFirst oldStandalone newPadded text
    checked path syntaxError file new (write dryRun file new)
  else fail file <| s!"{path}: DFLASH2-DRAFTER-GROUP present but neither padded slot-share, " ++
    "compact-64, nor keep-as-is standalone block found"

/-- `patch_file`. -/
def patchFile (text : Text) : Outcome :=
  if isIn marker text then
    if isIn v4Old text then
      let new := replaceFirst v4Old v4New text
      checked path syntaxError text new
        (if isIn v3Marker new then write dryRun text new
        else migrate path syntaxError dryRun text new)
    else if isIn v3Marker text then (.ok (), text)
    else migrate path syntaxError dryRun text text
  else patchPristine path syntaxError dryRun text

end

/-! ### What they do -/

/-- The edit of a row. -/
def AnchoredEdit.edit (e : AnchoredEdit) : Edit Char := Edit.between e.anchor e.replacement

/-- The loop makes each edit where its anchor occurs once. -/
theorem applyEdits_ok {es : List AnchoredEdit} (hes : ∀ e ∈ es, borderless e.anchor = true)
    {text new : Text} : applyEdits es text = .ok new ↔
      Edit.PatchesOnce (es.map AnchoredEdit.edit) text new := by
  induction es generalizing text with
  | nil =>
    rw [applyEdits, Except.ok.injEq]
    exact ⟨fun h => ⟨trivial, h⟩, fun h => h.2⟩
  | cons e es ih =>
    have hcount : count text e.anchor = occ e.anchor text :=
      count_eq_occ (hes e List.mem_cons_self) text
    have happly : e.edit.apply text = replaceFirst e.anchor e.replacement text :=
      apply_between _ _ _
    have hold : e.edit.old = e.anchor := old_between _ _
    simp only [applyEdits, hcount]
    by_cases hone : occ e.anchor text = 1
    · rw [if_neg (not_not.mpr hone), ih fun e he => hes e (List.mem_cons_of_mem _ he), ← happly]
      refine ⟨fun h => ⟨⟨?_, h.1⟩, h.2⟩, fun h => ⟨h.1.2, h.2⟩⟩
      rw [hold, hone]
    · rw [if_pos hone]
      refine ⟨fun h => (by cases h), fun h => absurd ?_ hone⟩
      rw [← hold]
      exact h.1.1

/-- The parts that are kept stand before and behind a block. -/
theorem compactCut_spec {text before after : Text} (h : compactCut text = some (before, after)) :
    ∃ block, text = before ++ block ++ after := by
  obtain ⟨start, -, h⟩ := Option.bind_eq_some_iff.mp h
  obtain ⟨stop, -, h⟩ := Option.bind_eq_some_iff.mp h
  split_ifs at h with hle
  cases h
  refine ⟨(text.drop start).take (stop - start), ?_⟩
  have hdrop : text.drop stop = (text.drop start).drop (stop - start) := by
    rw [List.drop_drop]
    congr 1
    omega
  rw [hdrop, List.append_assoc, List.take_append_drop, List.take_append_drop]

end Glm53Serve.Overlay.DrafterGroup
