import Mathlib
import Glm53Serve.Py.Replace

/-!
# The plan of the no-store overlay

The replacements of `patch_apc_no_store.py` in three files of the server.

## The model

`PLAN`, with its texts by their lines. A plan for a file carries the check that its replacements
leave each other's new texts alone.
-/

namespace Glm53Serve.Overlay.NoStore

open Py Occurrences

/-! ### The texts -/

/-- `SP_FIELD_OLD`. -/
def spFieldOld : List String :=
  ["    skip_reading_prefix_cache: bool | None = None",
   ""]

/-- `SP_FIELD_NEW`. -/
def spFieldNew : List String :=
  ["    skip_reading_prefix_cache: bool | None = None",
   "    skip_writing_prefix_cache: bool | None = None  # [glm53-apc-no-store]",
   "    \"\"\"If True, this request's KV blocks are never inserted into the GPU",
   "    prefix cache (overlay/patch_apc_no_store.py). Lookups are unaffected: the",
   "    request may still read-hit. Its blocks stay unhashed, so",
   "    ``BlockPool.free_blocks`` recycles them LIFO from the front of the free",
   "    queue instead of queueing them behind -- and thereby evicting -- other",
   "    sessions' cached blocks. For one-off batch lanes whose prefix will never be",
   "    reused. Also reachable as ``vllm_xargs: \x7b\"skip_writing_prefix_cache\": 1\x7d``",
   "    (``extra_args``); accepted values are bool, int 0/1 and str \"0\"/\"1\"",
   "    (pydantic coerces a JSON boolean in ``vllm_xargs`` to 1/0).\"\"\"",
   ""]

/-- `SP_CLASS_ANCHOR`. -/
def spClassAnchor : List String :=
  ["",
   "class SamplingParams(",
   ""]

/-- `SP_HELPERS` up to its functions. -/
def spKeys : List String :=
  ["",
   "# [glm53-apc-no-store] helper-begin",
   "_GLM53_NO_STORE_KEY = \"skip_writing_prefix_cache\"",
   "_GLM53_NO_STORE_ENV = \"GLM53_APC_NO_STORE\"",
   "",
   ""]

/-- `_glm53_parse_no_store`. -/
def spParse : List String :=
  ["def _glm53_parse_no_store(value, where):  # [glm53-apc-no-store]",
   "    \"\"\"Strict 0/1 parser for the per-request no-store flag.",
   "",
   "    Accepts bool, int 0/1 and str \"0\"/\"1\" -- nothing else. ``bool(\"0\")`` is",
   "    True, floats are ambiguous, \"yes\"/\"true\" are not part of the contract, so",
   "    all of those raise ValueError (an HTTP 400 through the OpenAI server's",
   "    ValueError handler when raised from SamplingParams.__post_init__).",
   "    \"\"\"",
   "    if isinstance(value, bool):",
   "        return value",
   "    if isinstance(value, int) and value in (0, 1):",
   "        return bool(value)",
   "    if isinstance(value, str) and value in (\"0\", \"1\"):",
   "        return value == \"1\"",
   "    raise ValueError(",
   "        f\"\x7bwhere\x7d must be 0 or 1 (int), \\\"0\\\"/\\\"1\\\" (str) or a JSON boolean; \"",
   "        f\"got \x7bvalue!r\x7d.\"",
   "    )",
   "",
   ""]

/-- `_glm53_no_store_env`, and the switch that it sets. -/
def spEnv : List String :=
  ["def _glm53_no_store_env():  # [glm53-apc-no-store]",
   "    \"\"\"GLM53_APC_NO_STORE: unset -> enabled; exactly \"0\"/\"1\"; else fail closed.\"\"\"",
   "    import os as _os",
   "",
   "    raw = _os.environ.get(_GLM53_NO_STORE_ENV)",
   "    if raw is None:",
   "        return True",
   "    if raw in (\"0\", \"1\"):",
   "        return raw == \"1\"",
   "    raise ValueError(",
   "        f\"\x7b_GLM53_NO_STORE_ENV\x7d must be exactly 0 or 1 (got \x7braw!r\x7d); \"",
   "        \"unset it to keep the per-request no-store flag honoured.\"",
   "    )",
   "",
   "",
   "_GLM53_NO_STORE_ENABLED = _glm53_no_store_env()",
   "",
   ""]

/-- `_glm53_validate_no_store_params`. -/
def spValidate : List String :=
  ["def _glm53_validate_no_store_params(params):  # [glm53-apc-no-store]",
   "    \"\"\"Reject a malformed flag where the request is still the client's.",
   "",
   "    Runs from ``SamplingParams.__post_init__`` -- i.e. in the API-server",
   "    process for /v1/chat/completions etc. (``to_sampling_params`` ->",
   "    ``from_optional``) and in the caller's process for the offline ``LLM``",
   "    API -- BEFORE the kill switch is consulted, so ``GLM53_APC_NO_STORE=0``",
   "    never turns a typo into a silent no-op. The typed field is normalised to",
   "    a bool; ``extra_args`` is left as sent.",
   "    \"\"\"",
   "    typed = params.skip_writing_prefix_cache",
   "    if typed is not None:",
   "        params.skip_writing_prefix_cache = _glm53_parse_no_store(",
   "            typed, \"SamplingParams.skip_writing_prefix_cache\"",
   "        )",
   "    extra = params.extra_args",
   "    if extra and _GLM53_NO_STORE_KEY in extra:",
   "        _glm53_parse_no_store(",
   "            extra[_GLM53_NO_STORE_KEY], 'vllm_xargs[\"skip_writing_prefix_cache\"]'",
   "        )",
   "",
   ""]

/-- `_glm53_resolve_no_store`. -/
def spResolve : List String :=
  ["def _glm53_resolve_no_store(sampling_params, request_id):  # [glm53-apc-no-store]",
   "    \"\"\"Engine-side resolution: typed field first, then ``extra_args``.",
   "",
   "    Never raises: ``Request`` is materialised in the engine-core input thread",
   "    (``EngineCore.preprocess_add_request``), where an exception is not a",
   "    request-scoped error. A value that fails the strict parser here is",
   "    unreachable through the OpenAI API (``_glm53_validate_no_store_params``",
   "    already rejected it with a 400); if it happens anyway it is logged once and",
   "    the request stores normally. Malformed values are rejected BEFORE the kill",
   "    switch is applied; the switch only decides whether a valid 1 is honoured.",
   "    \"\"\"",
   "    if sampling_params is None:",
   "        return False",
   "    raw = getattr(sampling_params, _GLM53_NO_STORE_KEY, None)",
   "    where = \"SamplingParams.skip_writing_prefix_cache\"",
   "    if raw is None:",
   "        extra = getattr(sampling_params, \"extra_args\", None)",
   "        if not extra or _GLM53_NO_STORE_KEY not in extra:",
   "            return False",
   "        raw = extra[_GLM53_NO_STORE_KEY]",
   "        where = 'vllm_xargs[\"skip_writing_prefix_cache\"]'",
   "    try:",
   "        value = _glm53_parse_no_store(raw, where)",
   "    except ValueError as exc:",
   "        logger.warning(",
   "            \"[glm53-apc-no-store] %s -- request %s stores normally \"",
   "            \"(this value should have been rejected at the API boundary)\",",
   "            exc,",
   "            request_id,",
   "        )",
   "        return False",
   "    if not value:",
   "        return False",
   "    # ``*_once`` is keyed on (msg, args): keep the request id OUT of the args",
   "    # so these really are one line per process; the per-request id is a debug",
   "    # line.",
   "    if not _GLM53_NO_STORE_ENABLED:",
   "        logger.info_once(",
   "            \"[glm53-apc-no-store] ignoring skip_writing_prefix_cache=1: \"",
   "            \"GLM53_APC_NO_STORE=0 (first occurrence; later ones not logged)\"",
   "        )",
   "        logger.debug(\"[glm53-apc-no-store] ignored for request %s\", request_id)",
   "        return False",
   "    logger.info_once(",
   "        \"[glm53-apc-no-store] first request resolved skip_writing_prefix_cache=1 \"",
   "        \"(lookups unaffected, prefix-cache stores suppressed; later \"",
   "        \"occurrences not logged)\"",
   "    )",
   "    logger.debug(\"[glm53-apc-no-store] request %s is no-store\", request_id)",
   "    return True",
   "# [glm53-apc-no-store] helper-end",
   "",
   ""]

/-- `SP_HELPERS`. -/
def spHelpers : List String := spKeys ++ spParse ++ spEnv ++ spValidate ++ spResolve

/-- `SP_POST_OLD`. -/
def spPostOld : List String :=
  ["            self.skip_reading_prefix_cache = self.prompt_logprobs is not None",
   ""]

/-- `SP_POST_NEW`. -/
def spPostNew : List String :=
  ["            self.skip_reading_prefix_cache = self.prompt_logprobs is not None",
   "        _glm53_validate_no_store_params(self)  # [glm53-apc-no-store]",
   ""]

/-- `REQ_RESOLVE_OLD`. -/
def reqResolveOld : List String :=
  ["        self.skip_reading_prefix_cache = self.get_skip_reading_prefix_cache()",
   ""]

/-- `REQ_RESOLVE_NEW`. -/
def reqResolveNew : List String :=
  ["        self.skip_reading_prefix_cache = self.get_skip_reading_prefix_cache()",
   "        # [glm53-apc-no-store] write-side sibling; resolved once, never raises",
   "        self.skip_writing_prefix_cache = self.get_skip_writing_prefix_cache()",
   ""]

/-- `REQ_METHOD_OLD`. -/
def reqMethodOld : List String :=
  ["        return False",
   "",
   "    def is_finished(self) -> bool:",
   ""]

/-- `REQ_METHOD_NEW`. -/
def reqMethodNew : List String :=
  ["        return False",
   "",
   "    def get_skip_writing_prefix_cache(self) -> bool:  # [glm53-apc-no-store]",
   "        \"\"\"Whether this request's blocks must never enter the prefix cache.",
   "",
   "        Typed ``SamplingParams.skip_writing_prefix_cache`` first, then",
   "        ``SamplingParams.extra_args`` (the ``vllm_xargs`` route). Strict 0/1",
   "        values; the kill switch GLM53_APC_NO_STORE=0 makes a valid 1 a logged",
   "        no-op. Never raises (see _glm53_resolve_no_store). PoolingParams are",
   "        out of scope (chat/completions only).",
   "        \"\"\"",
   "        from vllm.sampling_params import _glm53_resolve_no_store",
   "",
   "        return _glm53_resolve_no_store(self.sampling_params, self.request_id)",
   "",
   "    def is_finished(self) -> bool:",
   ""]

/-- `BP_CLASS_ANCHOR`. -/
def bpClassAnchor : List String :=
  ["",
   "class BlockPool:",
   ""]

/-- `BP_HELPER`. -/
def bpHelper : List String :=
  ["",
   "def _glm53_log_nostore(request, site) -> None:  # [glm53-apc-no-store]",
   "    \"\"\"Proof-of-life: log the first time a no-store request suppresses a store.",
   "",
   "    Pair with the resolution receipt logged by Request: that one proves the",
   "    flag reached the engine, this one proves the store path was cut. A warm",
   "    no-store request that has nothing new to store legitimately emits only",
   "    the first.",
   "    \"\"\"",
   "    # ``info_once`` is keyed on (msg, args): the site is a bounded set (two",
   "    # values), the request id is deliberately not an arg.",
   "    logger.info_once(",
   "        \"[glm53-apc-no-store] suppressing prefix-cache store (%s site); \"",
   "        \"lookups still enabled; later occurrences not logged\",",
   "        site,",
   "    )",
   "    logger.debug(",
   "        \"[glm53-apc-no-store] %s store suppressed for request %s\",",
   "        site,",
   "        getattr(request, \"request_id\", \"<unknown>\"),",
   "    )",
   "",
   ""]

/-- `BP_FULL_OLD`. -/
def bpFullOld : List String :=
  ["        if num_cached_blocks >= num_full_blocks:",
   "            return",
   "        new_full_blocks = blocks[num_cached_blocks:num_full_blocks]",
   ""]

/-- `BP_FULL_NEW`. -/
def bpFullNew : List String :=
  ["        if num_cached_blocks >= num_full_blocks:",
   "            return",
   "        if getattr(request, \"skip_writing_prefix_cache\", False):  # [glm53-apc-no-store]",
   "            # No-store request: insert no hash, emit no BlockStored event.",
   "            # The caller (SingleTypeKVCacheManager.cache_blocks) still advances",
   "            # ``num_cached_block`` -- the running-request sentinel read at",
   "            # single_type_kv_cache_manager.py:196 and kv_cache_coordinator.py:241",
   "            # -- so allocation accounting is unchanged. These blocks keep",
   "            # ``block_hash is None`` and are recycled LIFO from the front of the",
   "            # free queue by ``free_blocks`` below, ahead of anything cached.",
   "            _glm53_log_nostore(request, \"full\")",
   "            return",
   "        new_full_blocks = blocks[num_cached_blocks:num_full_blocks]",
   ""]

/-- `BP_PARTIAL_OLD`. -/
def bpPartialOld : List String :=
  ["        if block.is_null:",
   "            return None",
   "",
   "        assert block_size > self.hash_block_size",
   ""]

/-- `BP_PARTIAL_NEW`. -/
def bpPartialNew : List String :=
  ["        if block.is_null:",
   "            return None",
   "        if getattr(request, \"skip_writing_prefix_cache\", False):  # [glm53-apc-no-store]",
   "            # No-store request: no partial entry. Returning None also stops",
   "            # MambaManager._cache_partial_tail_block from registering this",
   "            # request in ``_partial_hit_reqs`` as a partial-tail *producer*",
   "            # (single_type_kv_cache_manager.py:1865), which keeps",
   "            # get_num_blocks_to_allocate and allocate_new_blocks in agreement",
   "            # and keeps move_block_hashes unreachable for it. The *reader* side",
   "            # of the partial-hit CoW (add_local_computed_blocks:285-291) is",
   "            # untouched: lookups remain enabled for no-store requests.",
   "            _glm53_log_nostore(request, \"partial\")",
   "            return None",
   "",
   "        assert block_size > self.hash_block_size",
   ""]

/-- `MARK`. -/
def markLines : List String := ["# [glm53-apc-no-store]"]

/-- `MARK`. -/
def mark : Text := joinLines markLines

/-! ### The plan -/

/-- One `(label, old, new)` of the plan. -/
structure Change where
  label : String
  old : Text
  new : Text

/-- The replacement as an edit of the text around it. -/
def Change.edit (c : Change) : Edit Char := Edit.between c.old c.new

/-- The replacements carry the mark and leave each other's new texts alone. -/
def soundChanges (mark : Text) (cs : List Change) : Bool :=
  !cs.isEmpty && cs.all (fun c => isIn mark c.new) && Edit.putsOnce [] (cs.map Change.edit)

/-- The plan for one file. -/
structure FilePlan where
  edits : List Change
  requires : List Text
  sound : soundChanges mark edits = true

/-- The files of the overlay. -/
inductive Target where
  | samplingParams
  | request
  | blockPool
  deriving DecidableEq

/-- The keys of `PLAN`, in their order. -/
def targets : List Target := [.samplingParams, .request, .blockPool]

theorem mem_targets (x : Target) : x ∈ targets := by cases x <;> decide

/-- The prerequisite of two of the files. -/
def loggerLines : List String := ["logger = init_logger(__name__)", ""]

/-- The prerequisite of two of the files. -/
def loggerLine : Text := joinLines loggerLines

/-- The edits of `sampling_params.py`. -/
def samplingParamsEdits (fieldOld fieldNew anchor helpers postOld postNew : Text) : List Change :=
  [⟨"sampling-field", fieldOld, fieldNew⟩,
   ⟨"sampling-helpers", anchor, helpers ++ anchor⟩,
   ⟨"sampling-post-init", postOld, postNew⟩]

/-- The edits of `request.py`. -/
def requestEdits (resolveOld resolveNew methodOld methodNew : Text) : List Change :=
  [⟨"request-resolve", resolveOld, resolveNew⟩,
   ⟨"request-method", methodOld, methodNew⟩]

/-- The edits of `block_pool.py`. -/
def blockPoolEdits (anchor helper fullOld fullNew partialOld partialNew : Text) : List Change :=
  [⟨"block-pool-helper", anchor, helper ++ anchor⟩,
   ⟨"block-pool-full", fullOld, fullNew⟩,
   ⟨"block-pool-partial", partialOld, partialNew⟩]

/-- The check of the edits of `sampling_params.py`, of the letters of their texts. -/
def samplingParamsSound : List Text → Bool
  | [mark, fieldOld, fieldNew, anchor, helpers, postOld, postNew] =>
    soundChanges mark (samplingParamsEdits fieldOld fieldNew anchor helpers postOld postNew)
  | _ => false

def requestSound : List Text → Bool
  | [mark, resolveOld, resolveNew, methodOld, methodNew] =>
    soundChanges mark (requestEdits resolveOld resolveNew methodOld methodNew)
  | _ => false

def blockPoolSound : List Text → Bool
  | [mark, anchor, helper, fullOld, fullNew, partialOld, partialNew] =>
    soundChanges mark (blockPoolEdits anchor helper fullOld fullNew partialOld partialNew)
  | _ => false

set_option maxRecDepth 20000 in
theorem samplingParams_sound :
    samplingParamsSound ([markLines, spFieldOld, spFieldNew, spClassAnchor, spHelpers, spPostOld,
      spPostNew].map joinLines) = true := by
  apply check_of_spelled samplingParamsSound
  · unfold markLines spFieldOld spFieldNew spClassAnchor spHelpers spKeys spParse spEnv spValidate
      spResolve spPostOld spPostNew
    simp only [List.cons_append, List.nil_append]
    repeat (first
      | exact SpelledAll.nil | apply SpelledAll.cons | exact Spelled.nil | apply Spelled.cons)
  · decide +kernel

set_option maxRecDepth 20000 in
theorem request_sound :
    requestSound ([markLines, reqResolveOld, reqResolveNew, reqMethodOld, reqMethodNew].map
      joinLines) = true := by
  apply check_of_spelled requestSound
  · unfold markLines reqResolveOld reqResolveNew reqMethodOld reqMethodNew
    repeat (first
      | exact SpelledAll.nil | apply SpelledAll.cons | exact Spelled.nil | apply Spelled.cons)
  · decide +kernel

set_option maxRecDepth 20000 in
theorem blockPool_sound :
    blockPoolSound ([markLines, bpClassAnchor, bpHelper, bpFullOld, bpFullNew, bpPartialOld,
      bpPartialNew].map joinLines) = true := by
  apply check_of_spelled blockPoolSound
  · unfold markLines bpClassAnchor bpHelper bpFullOld bpFullNew bpPartialOld bpPartialNew
    repeat (first
      | exact SpelledAll.nil | apply SpelledAll.cons | exact Spelled.nil | apply Spelled.cons)
  · decide +kernel

/-- `PLAN`. -/
def plan : Target → FilePlan
  | .samplingParams =>
    ⟨samplingParamsEdits (joinLines spFieldOld) (joinLines spFieldNew) (joinLines spClassAnchor)
      (joinLines spHelpers) (joinLines spPostOld) (joinLines spPostNew), [loggerLine],
      samplingParams_sound⟩
  | .request =>
    ⟨requestEdits (joinLines reqResolveOld) (joinLines reqResolveNew) (joinLines reqMethodOld)
      (joinLines reqMethodNew), [], request_sound⟩
  | .blockPool =>
    ⟨blockPoolEdits (joinLines bpClassAnchor) (joinLines bpHelper) (joinLines bpFullOld)
      (joinLines bpFullNew) (joinLines bpPartialOld) (joinLines bpPartialNew), [loggerLine],
      blockPool_sound⟩

/-- `expected_marks`: how many marks a complete file carries. -/
def expectedMarks (cs : List Change) : ℤ :=
  (cs.map fun c => (count c.new mark : ℤ) - count c.old mark).sum

end Glm53Serve.Overlay.NoStore
