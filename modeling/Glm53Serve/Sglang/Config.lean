import Glm53Serve.Lib.Environ
import Glm53Serve.Sh.Number

/-!
# The configuration of the SGLang recipe

`lib.sh` loads `.env.glm53` and a profile into the shell of the head, fills in fallbacks and
old names, and starts a container on each rank with docker compose. The head renders the
compose file from its shell, the worker from the same two files and a list of variables that
is forwarded to it.

## The model

An environment gives the variables that the scripts and the compose file read; a file is its
assignments, to literal values. Sourcing a file exports what it assigns (`set -a`), and all that
`glm53_load_config` sets is exported. The scripts run under `set -u`. Compose looks a variable
up in the process environment, then in the later of its files, then in the earlier one, and
takes the default of the compose file where it is unset or empty.

The names that the scripts keep for their own paths and for the profile's name (`GLM53_ROOT`,
`GLM53_ENV_FILE`, `GLM53_PROFILE_FILE`, `GLM53_PROFILE_RESOLVED` and so on) are no variables of a
file here: a file that assigned them would change which files are read.

## What is proved

* `loadConfig_plain` — what the loaded shell holds of a variable that loading leaves alone.
* `loadConfig_aliased` — what it holds of a variable with a fallback.
* `headLookup_apply` — on the head, compose sees the loaded shell and nothing else.
-/

namespace Glm53Serve.Sglang

open Py Environ

/-! ### Variables -/

/-- The variables that the modelled scripts and the compose file read. -/
inductive Var where
  | glm53Profile | profileTier | profileRuntimeImage | speculativeAlgorithm
  | dflashDraftModelPath | dflashDraftAttentionBackend | dflashDraftWindowSize
  | mambaSsmDtype | maxMambaCacheSize
  | headFabricIp | vllmHostIp | workerFabricIp | workerVllmHostIp | apiHost | vllmHost
  | apiAdvertiseHost | apiPort | vllmPort | apiKey | vllmApiKey | glm53RuntimeImage | glm53VllmImage
  | masterAddr | masterPort | workerHfCache | hfCache | sshPort | modelId | modelRevision
  | modelCacheSlug | modelSnapshotContainer | mtpNumTokens | runtimeImageEffective
  | nodeRank | headless | containerMemoryLimit | restartPolicy | stopGracePeriod | healthStartPeriod
  | hfHubOffline | transformersOffline | hfHubDisableXet | servedModelName
  | maxModelLen | maxNumSeqs | maxNumBatchedTokens | memFractionStatic | kvCacheDtype | moeBackend
  | dsaPrefillBackend | dsaDecodeBackend | cudaGraphMaxBs | disableCudaGraph
  | epSize | enableTorchCompile | torchCompileMaxBs | enableMixedChunk | scheduleConservativeness
  | enablePrefillCp | attnCpSize | cpStrategy
  | ncclNet | ncclIbDisable | ncclIbHca | ncclIbRoceVersionNum | ncclIbAddrFamily | ncclIbAddrRange
  | ncclSocketIfname | tpSocketIfname | glooSocketIfname | ncclCrossNic | ncclCumemEnable
  | ncclIgnoreCpuAffinity | ncclNvlsEnable | ncclMaxNchannels | ncclMinNchannels | ncclDebug
  | ncclIbMergeNics | ncclIbQpsPerConnection | ncclNetGdrLevel | ncclDmabufEnable
  | workerNcclIbHca | workerNcclSocketIfname | workerTpSocketIfname | workerGlooSocketIfname
  | workerNcclIbAddrRange | workerHost | workerDir
  | hfDownloadWorkers | oomGuard | startSmoke | requireSwapOff | allowUnsupportedPlatform
  | strictFabricRoute | ncclIbGidIndex | workerNcclIbGidIndex
  deriving DecidableEq

/-- The variables of a shell. -/
abbrev Shell := Env Var Char

/-- A file of assignments. -/
abbrev EnvFile := File Var Char

/-! ### Loading -/

/-- The characters of a profile's name, `[A-Za-z0-9._-]`. -/
def profileChar (c : Char) : Bool := c.isAlphanum || c = '.' || c = '_' || c = '-'

/-- `MODEL_ID` with two hyphens for each slash. -/
def modelSlug (modelId : Text) : Text := modelId.flatMap fun c => if c = '/' then
    ['-', '-'] else [c]

/-- What `glm53_load_config` sets before it reads the profile. -/
def resetSelectors : EnvFile :=
  [(.profileTier, "validated".toList), (.profileRuntimeImage, []), (.speculativeAlgorithm, []),
    (.dflashDraftModelPath, []), (.dflashDraftAttentionBackend, []), (.dflashDraftWindowSize, []),
    (.mambaSsmDtype, []), (.maxMambaCacheSize, [])]

/-- `x="$\x7bx:-$\x7bold:-d\x7d\x7d"`. -/
def aliased (sh : Shell) (x old : Var) (d : Text) : Shell :=
  set sh x (orDefault (orDefault d (sh old)) (sh x))

/-- `[ "$\x7bMTP_NUM_TOKENS:-0\x7d" -gt 0 ]`; a test that fails is false. -/
def mtpPositive (sh : Shell) : Bool :=
  Sh.greater (Sh.testNumber (orDefault ['0'] (sh .mtpNumTokens))) (some 0)

/-- The fallbacks after the profile, up to the model. -/
def fallbacks (sh : Shell) : Shell :=
  let sh := aliased sh .headFabricIp .vllmHostIp []
  let sh := aliased sh .workerFabricIp .workerVllmHostIp []
  let sh := aliased sh .apiHost .vllmHost "0.0.0.0".toList
  let sh := aliased sh .apiAdvertiseHost .headFabricIp []
  let sh := aliased sh .apiPort .vllmPort "8888".toList
  let sh := aliased sh .apiKey .vllmApiKey []
  let sh := aliased sh .glm53RuntimeImage .glm53VllmImage []
  let sh := aliased sh .masterAddr .headFabricIp []
  let sh := aliased sh .workerHfCache .hfCache []
  set sh .sshPort (orDefault "22".toList (sh .sshPort))

/-- The model's directory, and the speculation that `MTP_NUM_TOKENS` asks for. -/
def derive (sh : Shell) (modelId modelRevision : Text) : Shell :=
  let slug := "models--".toList ++ modelSlug modelId
  let sh := set sh .modelCacheSlug slug
  let sh := set sh .modelSnapshotContainer
    ("/cache/huggingface/hub/".toList ++ slug ++ "/snapshots/".toList ++ modelRevision)
  let sh :=
    if orDefault [] (sh .speculativeAlgorithm) = [] then
      set sh .speculativeAlgorithm (if mtpPositive sh then "NEXTN".toList else "NONE".toList)
    else sh
  set sh .runtimeImageEffective
    (orDefault (orDefault [] (sh .glm53RuntimeImage)) (sh .profileRuntimeImage))

/-- What loading reads: the environment of the shell, `.env.glm53`, the profiles by name, and
the profile asked for. -/
structure Inputs where
  ambient : Shell
  envFile : EnvFile
  profiles : Text → Option EnvFile
  requested : Text

/-- What loading leaves: the shell, the profile that it read and its name. -/
structure Loaded where
  shell : Shell
  profileResolved : Text
  profile : EnvFile

/-- `GLM53_PROFILE_RESOLVED`. -/
def resolvedProfile (i : Inputs) : Text :=
  orDefault (orDefault "32k".toList (source i.ambient i.envFile .glm53Profile)) (some i.requested)

/-- The shell that the files leave, before the fallbacks. -/
def sourced (i : Inputs) (profile : EnvFile) : Shell :=
  source (source (source i.ambient i.envFile) resetSelectors) profile

/-- `glm53_load_config(requested)`, where `.env.glm53` and the compose file are there; `none` is
`glm53_die`, or an unset variable. -/
def loadConfig (i : Inputs) : Option Loaded := do
  let name := resolvedProfile i
  if !name.all profileChar then none
  let profile ← i.profiles name
  let sh := fallbacks (sourced i profile)
  let modelId ← sh .modelId
  let modelRevision ← sh .modelRevision
  return ⟨derive sh modelId modelRevision, name, profile⟩

/-! ### The compose file -/

/-- A value of the compose file: `$\x7bvar:-default\x7d`. -/
structure Setting where
  key : String
  var : Var
  default : Text

/-- The service's own values, but for the image. -/
def serviceSettings : List Setting :=
  [⟨"mem_limit", .containerMemoryLimit, "120g".toList⟩,
    ⟨"memswap_limit", .containerMemoryLimit, "120g".toList⟩,
    ⟨"restart", .restartPolicy, "no".toList⟩,
    ⟨"stop_grace_period", .stopGracePeriod, "30s".toList⟩,
    ⟨"volumes", .hfCache, []⟩,
    ⟨"start_period", .healthStartPeriod, "3600s".toList⟩]

/-- The container's environment, but for its constants and `GLM53_PROFILE_NAME`. -/
def environment : List Setting :=
  [⟨"HF_HUB_OFFLINE", .hfHubOffline, "1".toList⟩,
    ⟨"TRANSFORMERS_OFFLINE", .transformersOffline, "1".toList⟩,
    ⟨"HF_HUB_DISABLE_XET", .hfHubDisableXet, "1".toList⟩,
    ⟨"MODEL_SNAPSHOT_CONTAINER", .modelSnapshotContainer, []⟩,
    ⟨"SERVED_MODEL_NAME", .servedModelName, "glm-5.3-flash-nvfp4".toList⟩,
    ⟨"API_HOST", .apiHost, "0.0.0.0".toList⟩,
    ⟨"API_PORT", .apiPort, "8888".toList⟩,
    ⟨"API_KEY", .apiKey, []⟩,
    ⟨"PROFILE_TIER", .profileTier, "validated".toList⟩,
    ⟨"NODE_RANK", .nodeRank, "0".toList⟩,
    ⟨"HEADLESS", .headless, []⟩,
    ⟨"MASTER_ADDR", .masterAddr, []⟩,
    ⟨"MASTER_PORT", .masterPort, "25000".toList⟩,
    ⟨"MAX_MODEL_LEN", .maxModelLen, "32768".toList⟩,
    ⟨"MAX_NUM_SEQS", .maxNumSeqs, "1".toList⟩,
    ⟨"MAX_NUM_BATCHED_TOKENS", .maxNumBatchedTokens, "4096".toList⟩,
    ⟨"MEM_FRACTION_STATIC", .memFractionStatic, "0.90".toList⟩,
    ⟨"KV_CACHE_DTYPE", .kvCacheDtype, "fp8_e4m3".toList⟩,
    ⟨"MOE_BACKEND", .moeBackend, "flashinfer_cutlass".toList⟩,
    ⟨"DSA_PREFILL_BACKEND", .dsaPrefillBackend, "flashinfer_sparse_mla".toList⟩,
    ⟨"DSA_DECODE_BACKEND", .dsaDecodeBackend, "flashinfer_sparse_mla".toList⟩,
    ⟨"CUDA_GRAPH_MAX_BS", .cudaGraphMaxBs, "1".toList⟩,
    ⟨"DISABLE_CUDA_GRAPH", .disableCudaGraph, "0".toList⟩,
    ⟨"MTP_NUM_TOKENS", .mtpNumTokens, "0".toList⟩,
    ⟨"SPECULATIVE_ALGORITHM", .speculativeAlgorithm, "NONE".toList⟩,
    ⟨"DFLASH_DRAFT_MODEL_PATH", .dflashDraftModelPath, []⟩,
    ⟨"DFLASH_DRAFT_ATTENTION_BACKEND", .dflashDraftAttentionBackend, []⟩,
    ⟨"DFLASH_DRAFT_WINDOW_SIZE", .dflashDraftWindowSize, []⟩,
    ⟨"MAMBA_SSM_DTYPE", .mambaSsmDtype, []⟩,
    ⟨"MAX_MAMBA_CACHE_SIZE", .maxMambaCacheSize, []⟩,
    ⟨"EP_SIZE", .epSize, "2".toList⟩,
    ⟨"ENABLE_TORCH_COMPILE", .enableTorchCompile, "0".toList⟩,
    ⟨"TORCH_COMPILE_MAX_BS", .torchCompileMaxBs, "4".toList⟩,
    ⟨"ENABLE_MIXED_CHUNK", .enableMixedChunk, "0".toList⟩,
    ⟨"SCHEDULE_CONSERVATIVENESS", .scheduleConservativeness, "1.0".toList⟩,
    ⟨"ENABLE_PREFILL_CP", .enablePrefillCp, "0".toList⟩,
    ⟨"ATTN_CP_SIZE", .attnCpSize, "1".toList⟩,
    ⟨"CP_STRATEGY", .cpStrategy, "interleave".toList⟩,
    ⟨"NCCL_NET", .ncclNet, "IB".toList⟩,
    ⟨"NCCL_IB_DISABLE", .ncclIbDisable, "0".toList⟩,
    ⟨"NCCL_IB_HCA", .ncclIbHca, []⟩,
    ⟨"NCCL_IB_ROCE_VERSION_NUM", .ncclIbRoceVersionNum, "2".toList⟩,
    ⟨"NCCL_IB_ADDR_FAMILY", .ncclIbAddrFamily, "AF_INET".toList⟩,
    ⟨"NCCL_IB_ADDR_RANGE", .ncclIbAddrRange, []⟩,
    ⟨"NCCL_SOCKET_IFNAME", .ncclSocketIfname, []⟩,
    ⟨"TP_SOCKET_IFNAME", .tpSocketIfname, []⟩,
    ⟨"GLOO_SOCKET_IFNAME", .glooSocketIfname, []⟩,
    ⟨"NCCL_CROSS_NIC", .ncclCrossNic, "1".toList⟩,
    ⟨"NCCL_CUMEM_ENABLE", .ncclCumemEnable, "0".toList⟩,
    ⟨"NCCL_IGNORE_CPU_AFFINITY", .ncclIgnoreCpuAffinity, "1".toList⟩,
    ⟨"NCCL_NVLS_ENABLE", .ncclNvlsEnable, "0".toList⟩,
    ⟨"NCCL_MAX_NCHANNELS", .ncclMaxNchannels, "4".toList⟩,
    ⟨"NCCL_MIN_NCHANNELS", .ncclMinNchannels, "4".toList⟩,
    ⟨"NCCL_DEBUG", .ncclDebug, "WARN".toList⟩,
    ⟨"NCCL_IB_MERGE_NICS", .ncclIbMergeNics, []⟩,
    ⟨"NCCL_IB_QPS_PER_CONNECTION", .ncclIbQpsPerConnection, []⟩,
    ⟨"NCCL_NET_GDR_LEVEL", .ncclNetGdrLevel, []⟩,
    ⟨"NCCL_DMABUF_ENABLE", .ncclDmabufEnable, []⟩]

/-- The values of the compose file. -/
def settings : List Setting := serviceSettings ++ environment

/-- What compose looks up, with two `--env-file`s. -/
def composeLookup (process : Shell) (envFile profile : EnvFile) : Shell := fun x =>
  (process x).or ((assigned profile x).or (assigned envFile x))

/-- The value of a setting. -/
def Setting.value (s : Setting) (lookup : Shell) : Text := orDefault s.default (lookup s.var)

/-- `image: $\x7bPROFILE_RUNTIME_IMAGE:-$\x7bGLM53_RUNTIME_IMAGE:?…\x7d\x7d`; `none` is the error
of an image that is not set. -/
def image (lookup : Shell) : Option Text :=
  match orDefault (orDefault [] (lookup .glm53RuntimeImage)) (lookup .profileRuntimeImage) with
  | [] => none
  | t => some t

/-- The environment of the container. -/
def containerEnv (lookup : Shell) : Shell := fun x =>
  (environment.find? (·.var = x)).map (·.value lookup)

/-- The environment of a compose command, with `GLM53_PROFILE_RESOLVED`. -/
structure Process where
  vars : Shell
  profileResolved : Option Text

/-- `GLM53_PROFILE_NAME`. -/
def Process.profileName (p : Process) : Text := orDefault "unknown".toList p.profileResolved

/-- `glm53_compose`. -/
def headProcess (l : Loaded) : Process where
  vars := set (set l.shell .nodeRank (orDefault ['0'] (l.shell .nodeRank))) .headless
    (orDefault [] (l.shell .headless))
  profileResolved := some l.profileResolved

/-- What compose looks up on the head. -/
def headLookup (i : Inputs) (l : Loaded) : Shell :=
  composeLookup (headProcess l).vars i.envFile l.profile

/-! ### What loading leaves -/

theorem aliased_self (sh : Shell) (x old : Var) (d : Text) :
    aliased sh x old d x = some (orDefault (orDefault d (sh old)) (sh x)) :=
  set_self ..

theorem aliased_of_ne (sh : Shell) {x y : Var} (h : y ≠ x) (old : Var) (d : Text) :
    aliased sh x old d y = sh y :=
  set_of_ne _ h _

/-- The variables that a fallback sets. -/
def fallbackVars : List Var :=
  [.headFabricIp, .workerFabricIp, .apiHost, .apiAdvertiseHost, .apiPort, .apiKey,
    .glm53RuntimeImage, .masterAddr, .workerHfCache, .sshPort]

/-- The variables that are derived from others. -/
def derivedVars : List Var :=
  [.modelCacheSlug, .modelSnapshotContainer, .speculativeAlgorithm, .runtimeImageEffective]

theorem fallbacks_of_notMem {x : Var} (hx : x ∉ fallbackVars) (sh : Shell) :
    fallbacks sh x = sh x := by
  simp only [fallbackVars, List.mem_cons, List.not_mem_nil, or_false, not_or] at hx
  simp only [fallbacks]
  rw [set_of_ne _ hx.2.2.2.2.2.2.2.2.2]
  simp only [aliased_of_ne, hx, ne_eq, not_false_eq_true]

theorem derive_of_notMem {x : Var} (hx : x ∉ derivedVars) (sh : Shell) (modelId rev : Text) :
    derive sh modelId rev x = sh x := by
  simp only [derivedVars, List.mem_cons, List.not_mem_nil, or_false, not_or] at hx
  simp only [derive]
  split_ifs <;> simp only [set_of_ne, hx, ne_eq, not_false_eq_true]

/-- What loading does once the profile is found. -/
theorem loadConfig_spec {i : Inputs} {l : Loaded} (h : loadConfig i = some l) :
    ∃ modelId rev, l.shell = derive (fallbacks (sourced i l.profile)) modelId rev := by
  simp only [loadConfig, Option.bind_eq_bind, Option.pure_def] at h
  split_ifs at h
  · cases h
  · obtain ⟨profile, -, h⟩ := Option.bind_eq_some_iff.mp h
    obtain ⟨modelId, -, h⟩ := Option.bind_eq_some_iff.mp h
    obtain ⟨rev, -, h⟩ := Option.bind_eq_some_iff.mp h
    cases h
    exact ⟨modelId, rev, rfl⟩

/-- The variables that loading resets before the profile. -/
def selectorVars : List Var := resetSelectors.map (·.1)

/-- What the two files and the environment say of a variable. -/
def told (i : Inputs) (profile : EnvFile) (x : Var) : Option Text :=
  ((assigned profile x).or (assigned i.envFile x)).or (i.ambient x)

theorem assigned_resetSelectors {x : Var} (hx : x ∉ selectorVars) :
    assigned resetSelectors x = none := by
  rw [assigned, Option.map_eq_none_iff, List.find?_eq_none]
  intro a ha
  rw [decide_eq_true_eq]
  rintro rfl
  exact hx (List.mem_map_of_mem (List.mem_reverse.mp ha))

theorem sourced_apply {i : Inputs} {x : Var} (hx : x ∉ selectorVars) (profile : EnvFile) :
    sourced i profile x = told i profile x := by
  rw [sourced, source_apply, source_apply, source_apply, assigned_resetSelectors hx, Option.none_or,
    told, Option.or_assoc]

/-- A selector is set, to the empty text if not by the profile. -/
theorem sourced_selector {i : Inputs} {x : Var} (hx : x ∈ selectorVars) (profile : EnvFile) :
    (sourced i profile x).isSome = true := by
  rw [sourced, source_apply, Option.isSome_or, source_apply, Option.isSome_or]
  have : (assigned resetSelectors x).isSome = true := by
    revert x
    decide
  rw [this, Bool.true_or, Bool.or_true]

/-- Loading leaves a variable that is no selector, has no fallback and is not derived. -/
theorem loadConfig_plain {i : Inputs} {l : Loaded} (h : loadConfig i = some l) {x : Var}
    (hs : x ∉ selectorVars) (hf : x ∉ fallbackVars) (hd : x ∉ derivedVars) :
    l.shell x = told i l.profile x := by
  obtain ⟨modelId, rev, hl⟩ := loadConfig_spec h
  rw [hl, derive_of_notMem hd, fallbacks_of_notMem hf, sourced_apply hs]

/-- The variables whose fallback is an old name, with the name and the default. -/
def aliases : List (Var × Var × Text) :=
  [(.apiHost, .vllmHost, "0.0.0.0".toList), (.apiPort, .vllmPort, "8888".toList),
    (.apiKey, .vllmApiKey, []), (.glm53RuntimeImage, .glm53VllmImage, [])]

/-- A variable with an old name: its own value, or that of the old name, or the default. -/
theorem loadConfig_aliased {i : Inputs} {l : Loaded} (h : loadConfig i = some l)
    {a : Var × Var × Text} (ha : a ∈ aliases) :
    l.shell a.1 =
      some (orDefault (orDefault a.2.2 (told i l.profile a.2.1)) (told i l.profile a.1)) := by
  obtain ⟨modelId, rev, hl⟩ := loadConfig_spec h
  have hd : a.1 ∉ derivedVars := by
    revert a
    decide
  have hs : a.1 ∉ selectorVars ∧ a.2.1 ∉ selectorVars := by
    revert a
    decide
  rw [hl, derive_of_notMem hd, ← sourced_apply hs.1, ← sourced_apply hs.2]
  simp only [aliases, List.mem_cons, List.not_mem_nil, or_false] at ha
  rcases ha with rfl | rfl | rfl | rfl <;>
    simp only [fallbacks, aliased_self, aliased_of_ne, set_of_ne, ne_eq, reduceCtorEq,
      not_false_eq_true]

/-- `MASTER_ADDR` is its own value where this is not empty. -/
theorem loadConfig_masterAddr {i : Inputs} {l : Loaded} (h : loadConfig i = some l) :
    ∃ d, l.shell .masterAddr = some (orDefault d (told i l.profile .masterAddr)) := by
  obtain ⟨modelId, rev, hl⟩ := loadConfig_spec h
  rw [hl, derive_of_notMem (by decide), ← sourced_apply (by decide)]
  simp only [fallbacks, aliased_self, aliased_of_ne, set_of_ne, ne_eq, reduceCtorEq,
    not_false_eq_true]
  exact ⟨_, rfl⟩

/-- `PROFILE_RUNTIME_IMAGE` is the profile's. -/
theorem loadConfig_profileImage {i : Inputs} {l : Loaded} (h : loadConfig i = some l) :
    l.shell .profileRuntimeImage = some
      (orDefault [] (assigned l.profile .profileRuntimeImage)) := by
  obtain ⟨modelId, rev, hl⟩ := loadConfig_spec h
  rw [hl, derive_of_notMem (by decide), fallbacks_of_notMem (by decide), sourced, source_apply,
    source_apply, show assigned resetSelectors .profileRuntimeImage =
      some [] by decide, Option.some_or]
  cases assigned l.profile .profileRuntimeImage with
  | none => rfl
  | some t => cases t <;> rfl

/-! ### Compose on the head -/

theorem isSome_set {env : Shell} {y : Var} (h : (env y).isSome = true) (x : Var) (v : Text) :
    (set env x v y).isSome = true := by
  by_cases hy : y = x
  · rw [hy, set_self]
    rfl
  · rwa [set_of_ne _ hy]

theorem isSome_fallbacks {sh : Shell} {y : Var} (h : (sh y).isSome = true) :
    (fallbacks sh y).isSome = true := by
  simp only [fallbacks, aliased]
  iterate 10 refine isSome_set ?_ _ _
  exact h

theorem isSome_derive {sh : Shell} {y : Var} (h : (sh y).isSome = true) (modelId rev : Text) :
    (derive sh modelId rev y).isSome = true := by
  simp only [derive]
  split_ifs
  all_goals iterate 3 refine isSome_set ?_ _ _
  all_goals first
    | exact h
    | exact isSome_set h _ _

/-- Loading sets what a file assigns. -/
theorem loadConfig_assigned {i : Inputs} {l : Loaded} (h : loadConfig i = some l) {x : Var}
    (hx : l.shell x = none) : (assigned l.profile x).or (assigned i.envFile x) = none := by
  obtain ⟨modelId, rev, hl⟩ := loadConfig_spec h
  by_contra hne
  have hsome : (sourced i l.profile x).isSome = true := by
    rw [sourced, source_apply, source_apply, source_apply]
    cases hp : assigned l.profile x with
    | some t => rfl
    | none =>
      rw [hp, Option.none_or] at hne
      cases hf : assigned i.envFile x with
      | none => exact absurd hf hne
      | some t => cases assigned resetSelectors x <;> rfl
  have := isSome_derive (isSome_fallbacks hsome) modelId rev
  rw [← hl, hx] at this
  cases this

/-- On the head, compose sees the loaded shell. -/
theorem headLookup_apply {i : Inputs} {l : Loaded} (h : loadConfig i = some l) {x : Var}
    (hr : x ≠ .nodeRank) (hh : x ≠ .headless) : headLookup i l x = l.shell x := by
  simp only [headLookup, composeLookup, headProcess, set_of_ne _ hh, set_of_ne _ hr]
  cases hx : l.shell x with
  | some t => rfl
  | none => rw [Option.none_or, loadConfig_assigned h hx]

end Glm53Serve.Sglang
