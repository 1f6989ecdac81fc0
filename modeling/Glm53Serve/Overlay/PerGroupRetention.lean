import Glm53Serve.Overlay.HybridPrefixHit

/-!
# Installing the per-group retention

`patch_apc_per_group_retention.py` patches the coordinator of the KV caches: an import, the helper
that it shares with `patch_hybrid_prefix_hit.py`, its own helpers, and four blocks that use them.

## The model

`main`, from the switch and the file that it finds to the one that it leaves; `none` where it exits
with an error.

## What is proved

* `patch_patches` — the edits that it makes in a file without its mark.
* `complete_patch_iff` — when the file is complete after a success.
-/

namespace Glm53Serve.Overlay.PerGroupRetention

open Py Occurrences
open HybridPrefixHit (helper helperCode needle guardLine helperEdit)

/-! ### The texts -/

/-- `MARK`. -/
def markLines : List String :=
  ["# [glm53-apc-per-group]"]

/-- `IMPORT_OLD`. -/
def importOld : List String :=
  ["from abc import ABC, abstractmethod",
   "from collections.abc import Sequence",
   ""]

/-- `IMPORT_NEW`. -/
def importNew : List String :=
  ["import os  # [glm53-apc-per-group]",
   "from abc import ABC, abstractmethod",
   "from collections.abc import Sequence",
   ""]

/-- `_glm53_swa_retention_env`. -/
def swaRetentionEnv : List String :=
  ["def _glm53_swa_retention_env(  # [glm53-apc-per-group]",
   "    scheduler_block_size,",
   "    max_interval=1_000_000,",
   "):",
   "    \"\"\"Parse + validate VLLM_PREFIX_CACHE_RETENTION_INTERVAL_SWA.",
   "",
   "    Unset/empty -> None (automatic rule). Otherwise the raw value is validated",
   "    *unconditionally* — before any group is inspected — so a typo is a boot",
   "    failure rather than a silent no-op on a model without a drafter group:",
   "    integer, non-negative, a multiple of ``scheduler_block_size`` (the base",
   "    cache-hit granularity, so a retained tail lands on a real hit boundary),",
   "    and <= ``max_interval``.",
   "    \"\"\"",
   "    key = \"VLLM_PREFIX_CACHE_RETENTION_INTERVAL_SWA\"",
   "    raw = os.environ.get(key, \"\")",
   "    if raw.strip() == \"\":",
   "        return None",
   "    try:",
   "        value = int(raw.strip())",
   "    except ValueError:",
   "        raise ValueError(",
   "            f\"\x7bkey\x7d must be an integer (got \x7braw!r\x7d); \"",
   "            \"leave it unset for the automatic rule.\"",
   "        ) from None",
   "    if value < 0:",
   "        raise ValueError(f\"\x7bkey\x7d (\x7bvalue\x7d) must be non-negative.\")",
   "    if scheduler_block_size and value % scheduler_block_size != 0:",
   "        raise ValueError(",
   "            f\"\x7bkey\x7d (\x7bvalue\x7d) must be a multiple of scheduler_block_size \"",
   "            f\"(\x7bscheduler_block_size\x7d); 0 means reachable boundaries only.\"",
   "        )",
   "    if value > max_interval:",
   "        raise ValueError(",
   "            f\"\x7bkey\x7d (\x7bvalue\x7d) exceeds the maximum supported retention \"",
   "            f\"interval (\x7bmax_interval\x7d).\"",
   "        )",
   "    return value"]

/-- `_glm53_min_exempt_group_ids`. -/
def minExemptGroupIds : List String :=
  ["def _glm53_min_exempt_group_ids(  # [glm53-apc-per-group]",
   "    kv_cache_groups,",
   "    eagle_group_ids,",
   "):",
   "    \"\"\"Group ids the coordinator itself treats as EAGLE-exempt drafter groups.",
   "",
   "    Derived from coordinator state, never from a class name alone. A group",
   "    qualifies only when",
   "",
   "      (a) its inner spec is an *exact* ``SlidingWindowSpec`` (the DFlash2",
   "          drafter; ``KpoolTailSpec`` subclasses it and never prefix-caches), and",
   "      (b) ``eagle_group_ids`` is *exactly* that set of drafter groups.",
   "",
   "    (b) is the state overlay/patch_hybrid_prefix_hit.py establishes: it narrows",
   "    ``eagle_group_ids`` from the upstream all-groups fallback down to the drafter",
   "    SWA groups and, driven by the same discriminator, makes those groups skip the",
   "    hybrid hit ``min()``. When ``eagle_group_ids`` is the undiscriminating",
   "    all-groups fallback (or is annotated over some other group), the equality",
   "    fails and this returns the empty set — so an explicit SWA override fails",
   "    closed instead of starving a group that still shortens the hybrid hit.",
   "    \"\"\"",
   "    eagle = set(eagle_group_ids)",
   "    swa = \x7b",
   "        i",
   "        for i, g in enumerate(kv_cache_groups)",
   "        if _glm53_is_draft_swa_spec(g.kv_cache_spec)",
   "    \x7d",
   "    if not swa or eagle != swa:",
   "        return frozenset()",
   "    return frozenset(swa)"]

/-- `_glm53_retention_for_group`. -/
def retentionForGroup : List String :=
  ["def _glm53_retention_for_group(  # [glm53-apc-per-group]",
   "    spec,",
   "    global_interval,",
   "    swa_interval,",
   "    alignment_tokens,",
   "    is_min_exempt,",
   "):",
   "    \"\"\"Prefix-cache retention interval for one KV cache group.",
   "",
   "    Only a group that is both an exact ``SlidingWindowSpec`` **and** EAGLE/",
   "    min-exempt per ``_glm53_min_exempt_group_ids`` diverges from the global",
   "    value. Both the explicit and the automatic path require min-exemption: a",
   "    sliding-window group that still participates in the hybrid hit ``min()``",
   "    must keep the global interval, because sparsifying it would shorten every",
   "    hit.",
   "",
   "    ``swa_interval is not None``  -> use it verbatim for min-exempt drafter",
   "        groups (operator override; the caller has already validated it and has",
   "        already refused the setting outright if no group is min-exempt).",
   "    ``swa_interval is None``      -> automatic rule: a *hit-inert* sliding-window",
   "        group -- window smaller than the cache-hit alignment (so its cached tail",
   "        can only ever be consulted at an alignment boundary) AND EAGLE/min-exempt",
   "        (so its hit length is discarded) -- costs",
   "        ``need = cdiv(window - 1, block) + 1`` ids per boundary (>= 2 for any",
   "        EAGLE group) while contributing nothing to hit length, so keep only the",
   "        reachable boundaries (0). Any other group falls through to the global",
   "        value, including a genuine SWA model whose window spans the alignment.",
   "    \"\"\"",
   "    if not _glm53_is_draft_swa_spec(spec) or not is_min_exempt:",
   "        return global_interval",
   "    if swa_interval is not None:",
   "        return swa_interval",
   "    inner = _glm53_inner_kv_spec(spec)",
   "    window = getattr(inner, \"sliding_window\", None)",
   "    block = getattr(inner, \"block_size\", None)",
   "    if not window or not block or not alignment_tokens:",
   "        return global_interval",
   "    if window >= alignment_tokens:",
   "        return global_interval",
   "    return 0"]

/-- `_glm53_resolve_retention_by_group`. -/
def resolveRetentionByGroup : List String :=
  ["def _glm53_resolve_retention_by_group(  # [glm53-apc-per-group]",
   "    kv_cache_groups,",
   "    eagle_group_ids,",
   "    global_interval,",
   "    swa_interval,",
   "    alignment_tokens,",
   "):",
   "    \"\"\"Resolve the per-group retention vector, failing closed on a misdirected",
   "    SWA override.",
   "",
   "    An explicit ``VLLM_PREFIX_CACHE_RETENTION_INTERVAL_SWA`` is only meaningful",
   "    for the EAGLE-exempt drafter group. If the coordinator has not singled such a",
   "    group out, refuse to boot rather than ignore the setting (which would look",
   "    like the knob worked) or apply it by class name (which would sparsify a group",
   "    that is still inside the hit ``min()``).",
   "    \"\"\"",
   "    min_exempt = _glm53_min_exempt_group_ids(kv_cache_groups, eagle_group_ids)",
   "    if swa_interval is not None and not min_exempt:",
   "        raise ValueError(",
   "            \"VLLM_PREFIX_CACHE_RETENTION_INTERVAL_SWA is set \"",
   "            f\"(\x7bswa_interval\x7d) but this coordinator has no EAGLE-exempt drafter \"",
   "            \"sliding-window group: eagle_group_ids=\"",
   "            f\"\x7bsorted(set(eagle_group_ids))\x7d does not match the set of exact \"",
   "            \"SlidingWindowSpec groups. Applying it would sparsify a group that \"",
   "            \"still shortens the hybrid prefix-cache hit. Unset the variable (the \"",
   "            \"automatic rule is safe on any model) or apply \"",
   "            \"overlay/patch_hybrid_prefix_hit.py first.\"",
   "        )",
   "    return tuple(",
   "        _glm53_retention_for_group(",
   "            g.kv_cache_spec,",
   "            global_interval,",
   "            swa_interval,",
   "            alignment_tokens,",
   "            i in min_exempt,",
   "        )",
   "        for i, g in enumerate(kv_cache_groups)",
   "    )"]

/-- `_glm53_validate_retention_intervals`. -/
def validateRetentionIntervals : List String :=
  ["def _glm53_validate_retention_intervals(  # [glm53-apc-per-group]",
   "    intervals,",
   "    scheduler_block_size,",
   "):",
   "    \"\"\"Per-group counterpart of _validate_prefix_cache_retention_interval.",
   "",
   "    Defence in depth over the resolved vector: every non-``None`` entry is either",
   "    0 or a non-negative multiple of ``scheduler_block_size``. No upper bound here",
   "    — inherited *global* values are upstream's to bound; the 1,000,000 cap",
   "    applies to the SWA value this overlay introduces (``_glm53_swa_retention_env``).",
   "    \"\"\"",
   "    for group_id, value in enumerate(intervals):",
   "        if value is None or value == 0:",
   "            continue",
   "        if value < 0 or value % scheduler_block_size != 0:",
   "            raise ValueError(",
   "                f\"prefix-cache retention interval for KV cache group \x7bgroup_id\x7d \"",
   "                f\"(\x7bvalue\x7d) must be non-negative and a multiple of \"",
   "                f\"scheduler_block_size (\x7bscheduler_block_size\x7d).\"",
   "            )"]

/-- `_glm53_format_retention_vector`. -/
def formatRetentionVector : List String :=
  ["def _glm53_format_retention_vector(intervals):  # [glm53-apc-per-group]",
   "    \"\"\"Compact, greppable rendering of the resolved vector: ``[None,None,0]``.\"\"\"",
   "    return \"[\" + \",\".join(\"None\" if v is None else str(v) for v in intervals) + \"]\""]

/-- `RETENTION_HELPER`. -/
def retentionHelper : List String :=
  "" :: (swaRetentionEnv ++ ["", ""]) ++
    (minExemptGroupIds ++ ["", ""]) ++
    (retentionForGroup ++ ["", ""]) ++
    (resolveRetentionByGroup ++ ["", ""]) ++
    (validateRetentionIntervals ++ ["", ""]) ++
    (formatRetentionVector ++ ["", "", ""])

/-- `INIT_OLD`. -/
def initOld : List String :=
  ["        self.retention_interval = envs.VLLM_PREFIX_CACHE_RETENTION_INTERVAL",
   "        _validate_prefix_cache_retention_interval(",
   "            self.retention_interval, self.scheduler_block_size, kv_cache_config",
   "        )",
   ""]

/-- `INIT_NEW`. -/
def initNew : List String :=
  ["        self.retention_interval = envs.VLLM_PREFIX_CACHE_RETENTION_INTERVAL",
   "        _validate_prefix_cache_retention_interval(",
   "            self.retention_interval, self.scheduler_block_size, kv_cache_config",
   "        )",
   "        # [glm53-apc-per-group] Per-group retention. The DFlash2 drafter SWA group",
   "        # hashes cdiv(window - 1, block) + 1 == 33 block ids at EVERY hit boundary",
   "        # and frees them *cached* onto the LRU tail (BlockPool.free_blocks), i.e.",
   "        # 33 of the 38 ids a cached 3584-token segment costs -- for a group that is",
   "        # exempted from the hybrid hit min(). Give it its own sparse interval so",
   "        # MLA and mamba can stay dense and keep the fine hit grid. The raw env",
   "        # value is validated unconditionally; it is applied only to the groups the",
   "        # coordinator itself flagged EAGLE-exempt, else boot fails.",
   "        _glm53_swa_interval = _glm53_swa_retention_env(self.scheduler_block_size)",
   "        _glm53_min_exempt = _glm53_min_exempt_group_ids(",
   "            kv_cache_config.kv_cache_groups, self.eagle_group_ids",
   "        )",
   "        self.retention_interval_by_group = _glm53_resolve_retention_by_group(",
   "            kv_cache_config.kv_cache_groups,",
   "            self.eagle_group_ids,",
   "            self.retention_interval,",
   "            _glm53_swa_interval,",
   "            self.scheduler_block_size,",
   "        )",
   "        _glm53_validate_retention_intervals(",
   "            self.retention_interval_by_group, self.scheduler_block_size",
   "        )",
   "        logger.info(  # [glm53-apc-per-group]",
   "            \"[glm53-apc-per-group] retention_by_group=%s \"",
   "            \"(global=%s swa_env=%s eagle_min_exempt=%s)\",",
   "            _glm53_format_retention_vector(self.retention_interval_by_group),",
   "            self.retention_interval,",
   "            _glm53_swa_interval,",
   "            sorted(_glm53_min_exempt),",
   "        )",
   ""]

/-- `BASE_CACHE_OLD`. -/
def baseCacheOld : List String :=
  ["        for manager in self.single_type_managers:",
   "            manager.cache_blocks(",
   "                request,",
   "                num_computed_tokens,",
   "                retention_interval=self.retention_interval,",
   "            )",
   ""]

/-- `BASE_CACHE_NEW`. -/
def baseCacheNew : List String :=
  ["        for i, manager in enumerate(self.single_type_managers):",
   "            manager.cache_blocks(",
   "                request,",
   "                num_computed_tokens,",
   "                # [glm53-apc-per-group] per-group, not the single global value",
   "                retention_interval=self.retention_interval_by_group[i],",
   "            )",
   ""]

/-- `HYBRID_LOOP_OLD`. -/
def hybridLoopOld : List String :=
  ["        for manager in self.single_type_managers:",
   "            num_tokens_to_cache = aligned_num_computed_tokens",
   ""]

/-- `HYBRID_LOOP_NEW`. -/
def hybridLoopNew : List String :=
  ["        for i, manager in enumerate(self.single_type_managers):",
   "            num_tokens_to_cache = aligned_num_computed_tokens",
   ""]

/-- `HYBRID_CACHE_OLD`. -/
def hybridCacheOld : List String :=
  ["            manager.cache_blocks(",
   "                request,",
   "                num_tokens_to_cache,",
   "                retention_interval=self.retention_interval,",
   "            )",
   ""]

/-- `HYBRID_CACHE_NEW`. -/
def hybridCacheNew : List String :=
  ["            manager.cache_blocks(",
   "                request,",
   "                num_tokens_to_cache,",
   "                # [glm53-apc-per-group] per-group, not the single global value",
   "                retention_interval=self.retention_interval_by_group[i],",
   "            )",
   ""]

/-- `"\nimport os\n"`. -/
def importOs : List String := ["", "import os", ""]

/-! ### The installer -/

/-- `MARK`. -/
def mark : Text := joinLines markLines

/-- The import, if there is none. -/
def withImport (t : Text) : Option Text :=
  if isIn (joinLines importOs) t then some t
  else replaceOnce t (joinLines importOld) (joinLines importNew)

/-- `BASE_HELPER`, which is the helper of `patch_hybrid_prefix_hit.py`, if there is none of that
name. -/
def withBaseHelper (t : Text) : Text :=
  if isIn (joinLines guardLine) t then t
  else replaceFirst (joinLines needle) (joinLines helper ++ joinLines needle) t

/-- What `main` does to a file that is there: the text that it leaves when it exits with 0. -/
def patch (t : Text) : Option Text :=
  if isIn mark t then some t
  else if count t (joinLines needle) ≠ 1 then none
  else do
    let t ← withImport t
    let t := withBaseHelper t
    let t := replaceFirst (joinLines needle) (joinLines retentionHelper ++ joinLines needle) t
    let t ← replaceOnce t (joinLines initOld) (joinLines initNew)
    let t ← replaceOnce t (joinLines baseCacheOld) (joinLines baseCacheNew)
    let t ← replaceOnce t (joinLines hybridLoopOld) (joinLines hybridLoopNew)
    replaceOnce t (joinLines hybridCacheOld) (joinLines hybridCacheNew)

/-- Whether `GLM53_APC_PER_GROUP_RETENTION` leaves the overlay on. -/
def switchOn (env : Option Text) : Bool := env.getD ['1'] = ['1']

/-- `main`: the file that it leaves when it exits with 0. -/
def main (env file : Option Text) : Option (Option Text) :=
  if switchOn env then file.bind fun t => (patch t).map some else some file

/-- What the overlay puts into a file: the import, the helpers and the four blocks. -/
structure Complete (t : Text) : Prop where
  importOs : joinLines importNew <:+: t ∨ joinLines importOs <:+: t
  baseHelper : joinLines helperCode <:+: t
  retentionHelper : joinLines retentionHelper <:+: t
  init : joinLines initNew <:+: t
  baseCache : joinLines baseCacheNew <:+: t
  hybridLoop : joinLines hybridLoopNew <:+: t
  hybridCache : joinLines hybridCacheNew <:+: t

/-! ### The edits -/

def importEdit : Edit Char := Edit.between (joinLines importOld) (joinLines importNew)

def retentionEdit : Edit Char :=
  Edit.between (joinLines needle) (joinLines retentionHelper ++ joinLines needle)

/-- The replacements of the blocks. -/
def blockEdits : List (Edit Char) :=
  [Edit.between (joinLines initOld) (joinLines initNew),
   Edit.between (joinLines baseCacheOld) (joinLines baseCacheNew),
   Edit.between (joinLines hybridLoopOld) (joinLines hybridLoopNew),
   Edit.between (joinLines hybridCacheOld) (joinLines hybridCacheNew)]

def texts : List (List String) :=
  [importOld, importNew, needle, helper, retentionHelper, initOld, initNew, baseCacheOld,
    baseCacheNew, hybridLoopOld, hybridLoopNew, hybridCacheOld, hybridCacheNew,
    importOs, helperCode,
    guardLine]

/-- What the edits do to the texts of each other. -/
def editsSound : List Text → Bool
  | [importOld, importNew, needle, helper, retentionHelper, initOld, initNew, baseCacheOld,
      baseCacheNew, hybridLoopOld, hybridLoopNew, hybridCacheOld, hybridCacheNew,
      importOs, helperCode,
      guardLine] =>
    let importEdit := Edit.between importOld importNew
    let helperEdit := Edit.between needle (helper ++ needle)
    let retentionEdit := Edit.between needle (retentionHelper ++ needle)
    let blockEdits := [Edit.between initOld initNew, Edit.between baseCacheOld baseCacheNew,
      Edit.between hybridLoopOld hybridLoopNew, Edit.between hybridCacheOld hybridCacheNew]
    importEdit.keeps needle && helperEdit.keeps needle &&
      (helperEdit :: retentionEdit :: blockEdits).all (Edit.keeps importNew) &&
      (helperEdit :: retentionEdit :: blockEdits).all (Edit.keeps importOs) &&
      importEdit.adds guardLine 0 && importEdit.adds helperCode 0 && isIn helperCode helper &&
      (retentionEdit :: blockEdits).all (Edit.adds helperCode 0) &&
      Edit.keptInTurn (retentionEdit :: blockEdits) &&
      [importOld, initOld, baseCacheOld, hybridLoopOld, hybridCacheOld].all borderless
  | _ => false

set_option maxRecDepth 40000 in
theorem editsSound_texts : editsSound (texts.map joinLines) = true := by
  apply check_of_spelled editsSound
  · unfold texts importOld importNew needle helper retentionHelper swaRetentionEnv minExemptGroupIds
      retentionForGroup resolveRetentionByGroup validateRetentionIntervals
        formatRetentionVector initOld
      initNew baseCacheOld baseCacheNew hybridLoopOld hybridLoopNew hybridCacheOld hybridCacheNew
      importOs helperCode HybridPrefixHit.innerKvSpec HybridPrefixHit.isDraftSwaSpec guardLine
    simp only [List.cons_append, List.nil_append]
    repeat (first
      | exact SpelledAll.nil | apply SpelledAll.cons | exact Spelled.nil | apply Spelled.cons)
  · decide +kernel

theorem edits_sound :
    importEdit.keeps (joinLines needle) = true ∧ helperEdit.keeps (joinLines needle) = true ∧
      (helperEdit :: retentionEdit :: blockEdits).all (Edit.keeps (joinLines importNew)) = true ∧
      (helperEdit :: retentionEdit :: blockEdits).all (Edit.keeps (joinLines importOs)) = true ∧
      importEdit.adds (joinLines guardLine) 0 = true ∧
      importEdit.adds (joinLines helperCode) 0 = true ∧
      isIn (joinLines helperCode) (joinLines helper) = true ∧
      (retentionEdit :: blockEdits).all (Edit.adds (joinLines helperCode) 0) = true ∧
      Edit.keptInTurn (retentionEdit :: blockEdits) = true ∧
      [joinLines importOld, joinLines initOld, joinLines baseCacheOld, joinLines hybridLoopOld,
        joinLines hybridCacheOld].all borderless = true := by
  have h := editsSound_texts
  simp only [texts, List.map_cons, List.map_nil, editsSound, Bool.and_eq_true, and_assoc] at h
  exact h

/-! ### What a success means -/

/-- What the installer does to a file without the mark. -/
theorem patch_patches {t t' : Text} (hmark : isIn mark t = false) (h : patch t = some t') :
    count t (joinLines needle) = 1 ∧ ∃ t₁ t₂ t₃,
      Edit.PatchesOnce (if isIn (joinLines importOs) t then [] else [importEdit]) t t₁ ∧
      Edit.Patches (if isIn (joinLines guardLine) t₁ then [] else [helperEdit]) t₁ t₂ ∧
      Edit.Patches [retentionEdit] t₂ t₃ ∧ Edit.PatchesOnce blockEdits t₃ t' := by
  obtain ⟨hneedle, hneedle', -, -, -, -, -, -, -, honce⟩ := edits_sound
  obtain ⟨himport, hinit, hbase, hloop, hcache⟩ := by simpa using honce
  rw [patch, hmark, if_neg Bool.false_ne_true] at h
  split_ifs at h with hcount
  rw [not_not] at hcount
  obtain ⟨t₁, h₁, h⟩ := Option.bind_eq_some_iff.mp h
  obtain ⟨t₄, h₄, h⟩ := Option.bind_eq_some_iff.mp h
  obtain ⟨t₅, h₅, h⟩ := Option.bind_eq_some_iff.mp h
  obtain ⟨t₆, h₆, h₇⟩ := Option.bind_eq_some_iff.mp h
  have hpatch := patchesOnce_of_optional himport h₁
  -- the place of the helpers is still there
  have hoccurs : occ (joinLines needle) t₁ ≠ 0 := by
    have := hpatch.patches.occ_le (Edit.all_optional hneedle)
    have := occ_pos_of_count hcount
    omega
  have hhelper : Edit.Patches (if isIn (joinLines guardLine) t₁ then [] else [helperEdit]) t₁
      (withBaseHelper t₁) := by
    rw [withBaseHelper]
    cases isIn (joinLines guardLine) t₁ with
    | true => exact Edit.Patches.nil t₁
    | false => exact patches_between hoccurs _
  have hoccurs' : occ (joinLines needle) (withBaseHelper t₁) ≠ 0 := by
    have := hhelper.occ_le (Edit.all_optional hneedle')
    omega
  exact ⟨hcount, t₁, withBaseHelper t₁, _, hpatch, hhelper, patches_between hoccurs' _,
    (patchesOnce_of_replaceOnce hinit h₄).append ((patchesOnce_of_replaceOnce hbase h₅).append
      ((patchesOnce_of_replaceOnce hloop h₆).append (patchesOnce_of_replaceOnce hcache h₇)))⟩

/-- A run whose edits find their texts once succeeds. -/
theorem patch_of_finds {t : Text} (hmark : isIn mark t = false)
    (hneedle : occ (joinLines needle) t = 1)
    (h : Edit.FindsOnce ((if isIn (joinLines importOs) t then [] else [importEdit]) ++
      ((if isIn (joinLines guardLine) t then [] else [helperEdit]) ++
        retentionEdit :: blockEdits)) t) :
    patch t = some (Edit.applyAll ((if isIn (joinLines importOs) t then [] else [importEdit]) ++
      ((if isIn (joinLines guardLine) t then [] else [helperEdit]) ++
        retentionEdit :: blockEdits)) t) := by
  obtain ⟨-, -, -, -, hguard, -⟩ := edits_sound
  obtain ⟨himport, hrest⟩ := Edit.findsOnce_append.mp h
  obtain ⟨-, -, hinit, hbase, hloop, hcache, -⟩ := Edit.findsOnce_append.mp hrest
  simp only [old_between] at hinit hbase hloop hcache
  have hcount : ¬ count t (joinLines needle) ≠ 1 := not_not.mpr (count_of_occ_one hneedle)
  have hwithImport : withImport t =
      some (Edit.applyAll (if isIn (joinLines importOs) t then [] else [importEdit]) t) := by
    rw [withImport]
    cases hos : isIn (joinLines importOs) t with
    | true => rfl
    | false =>
      rw [hos, if_neg Bool.false_ne_true] at himport
      have hone := himport.1
      rw [importEdit, old_between] at hone
      exact replaceOnce_of_once hone _
  have hin := isIn_of_patches ⟨himport.finds, rfl⟩ (Edit.all_optional hguard)
  have hwithHelper : ∀ s, isIn (joinLines guardLine) s = isIn (joinLines guardLine) t →
      withBaseHelper s =
        Edit.applyAll (if isIn (joinLines guardLine) t then [] else [helperEdit]) s := by
    intro s hs
    have := HybridPrefixHit.withHelper_eq s
    rw [HybridPrefixHit.withHelper, ← apply_ite some, hs] at this
    rw [withBaseHelper, hs]
    exact Option.some.inj this
  rw [patch, hmark, if_neg Bool.false_ne_true, if_neg hcount, hwithImport, Edit.applyAll_append,
    Edit.applyAll_append]
  simp only [Option.bind_eq_bind, Option.bind_some, hwithHelper _ hin]
  rw [← apply_between, ← retentionEdit, replaceOnce_of_once hinit, Option.bind_some,
    replaceOnce_of_once hbase, Option.bind_some, replaceOnce_of_once hloop, Option.bind_some,
    replaceOnce_of_once hcache]
  rfl

/-- A file without the mark is complete after a success if the helper that it has, if any, is that
of the overlay. -/
theorem complete_of_unmarked {t t' : Text} (hmark : isIn mark t = false) (h : patch t = some t') :
    Complete t' ↔ (isIn (joinLines guardLine) t = true → joinLines helperCode <:+: t) := by
  obtain ⟨-, -, hkeepNew, hkeepOs, hguard, hcode, hput, hcodes, hturn, -⟩ := edits_sound
  obtain ⟨-, t₁, t₂, t₃, himp, h₂, hret, hblocks⟩ := patch_patches hmark h
  have h₁ := himp.patches
  have h₃ : Edit.Patches (retentionEdit :: blockEdits) t₂ t' := hret.append hblocks.patches
  rw [List.all_cons, Bool.and_eq_true] at hkeepNew hkeepOs
  have himport : joinLines importNew <:+: t' ∨ joinLines importOs <:+: t' := by
    cases hos : isIn (joinLines importOs) t with
    | true =>
      rw [hos, if_pos rfl] at h₁
      obtain ⟨-, rfl⟩ := h₁
      exact .inr (h₃.infix_of_keeps hkeepOs.2
        (h₂.infix_of_keeps (Edit.all_optional hkeepOs.1) (infix_of_isIn hos)))
    | false =>
      rw [hos, if_neg Bool.false_ne_true] at h₁
      have hnew := h₁.new_within_single
      rw [importEdit, new_between] at hnew
      exact .inl (h₃.infix_of_keeps hkeepNew.2
        (h₂.infix_of_keeps (Edit.all_optional hkeepNew.1) hnew))
  have hhelper : joinLines helperCode <:+: t' ↔
      (isIn (joinLines guardLine) t = true → joinLines helperCode <:+: t) := by
    have hnew : joinLines helperCode <:+: helperEdit.new := by
      rw [helperEdit, new_between]
      exact (infix_of_isIn hput).trans (List.prefix_append _ _).isInfix
    rw [h₃.infix_iff hcodes, h₂.infix_optional hnew, isIn_of_patches h₁ (Edit.all_optional hguard),
      h₁.infix_iff (Edit.all_optional hcode)]
  obtain ⟨hretention, hinit, hbase, hloop, hcache⟩ :
      joinLines retentionHelper ++ joinLines needle <:+: t' ∧ joinLines initNew <:+: t' ∧
        joinLines baseCacheNew <:+: t' ∧ joinLines hybridLoopNew <:+: t' ∧
        joinLines hybridCacheNew <:+: t' := by
    have := h₃.new_within hturn
    simpa [retentionEdit, blockEdits, new_between] using this
  have hretention' : joinLines retentionHelper <:+: t' :=
    (List.prefix_append _ _).isInfix.trans hretention
  exact ⟨fun hcomplete => hhelper.mp hcomplete.baseHelper,
    fun hguarded => ⟨himport, hhelper.mpr hguarded, hretention', hinit, hbase, hloop, hcache⟩⟩

/-- When the file is complete after a success. -/
theorem complete_patch_iff {t t' : Text} (h : patch t = some t') :
    Complete t' ↔ (isIn mark t = true → Complete t) ∧
      (isIn mark t = false → isIn (joinLines guardLine) t = true →
        joinLines helperCode <:+: t) := by
  cases hmark : isIn mark t with
  | true =>
    rw [patch, if_pos hmark] at h
    cases h
    simp
  | false =>
    rw [complete_of_unmarked hmark h]
    simp

end Glm53Serve.Overlay.PerGroupRetention
