import Mathlib
import Glm53Serve.Sglang.Config

/-!
# `validate-env.sh`

The checks that a loaded configuration has to pass before the launcher goes on.

## The model

`validate` goes through the checks in the order of the script; `none` is an exit with an error. A
variable read as `$X` has to be set. What the script asks of Python, Docker and the manifest is in
`External`: nothing here depends on the answers.

A number in `$(( ))` that bash refuses ends the command it stands in, here the `case` over the
speculation, and the script goes on behind it.

## What is proved

* `requiredOk_nonempty` — a required variable is not empty.
* `validate_spec` — what a validated configuration keeps to, as far as the container looks at it.
-/

namespace Glm53Serve.Sglang

open Py Environ Sh

/-! ### Required variables -/

/-- `$\x7bx:-\x7d`. -/
def text (sh : Shell) (x : Var) : Text := orDefault [] (sh x)

/-- The texts that `glm53_is_placeholder` looks for. -/
def placeholders : List Text :=
  ["REQUIRED".toList, "replace-me".toList, "worker-host".toList, "management-ip".toList,
    "head-roce-ip".toList, "worker-roce-ip".toList, "/USER/".toList]

/-- `glm53_is_placeholder`. -/
def isPlaceholder (t : Text) : Bool := t = [] || placeholders.any (· <:+: t)

/-- `REQUIRED_VARS`. -/
def requiredVars : List Var :=
  [.workerHost, .workerDir, .masterAddr, .masterPort, .headFabricIp, .workerFabricIp,
    .apiAdvertiseHost, .ncclIbHca, .ncclSocketIfname, .tpSocketIfname, .glooSocketIfname,
    .ncclIbAddrRange, .hfCache, .modelId, .modelRevision, .glm53RuntimeImage]

/-- The loop over `REQUIRED_VARS`. -/
def requiredOk (sh : Shell) : Bool := requiredVars.all fun x => !isPlaceholder (text sh x)

theorem requiredOk_nonempty {sh : Shell} (h : requiredOk sh = true) {x : Var}
    (hx : x ∈ requiredVars) :
    text sh x ≠ [] := by
  have := List.all_eq_true.mp h x hx
  simp only [isPlaceholder, Bool.not_eq_true', Bool.or_eq_false_iff, decide_eq_false_iff_not]
    at this
  exact this.1

/-! ### Checks on texts -/

/-- `glm53_validate_remote_paths`. -/
def remotePathsOk (sh : Shell) : Bool :=
  let host := text sh .workerHost
  let dir := text sh .workerDir
  host ≠ [] && host.all (fun c => c.isAlphanum || "_.:@%+-".toList.contains c) &&
    dir.head? = some '/' && dir.all (fun c => c.isAlphanum || "_./+:-".toList.contains c) &&
    !("/../".toList <:+: dir) && !("/..".toList <:+ dir) && !("/./".toList <:+: dir) &&
    !("/.".toList <:+ dir)

/-- `^[0-9a-f]\x7b40\x7d$`. -/
def isRevision (t : Text) : Bool :=
  t.length = 40 && t.all fun c => c.isDigit || ('a' ≤ c && c ≤ 'f')

/-- `[1-9][0-9]g|1[01][0-9]g|12[0-7]g`. -/
def isMemoryLimit : Text → Bool
  | [a, b, 'g'] => '1' ≤ a && a ≤ '9' && b.isDigit
  | ['1', b, c, 'g'] => ((b = '0' || b = '1') && c.isDigit) || (b = '2' && '0' ≤ c && c ≤ '7')
  | _ => false

/-- `case "$x" in 0|1)`. -/
def isSwitch (t : Text) : Bool := t = ['0'] || t = ['1']

/-! ### The script -/

/-- What the script learns from outside the shell. -/
structure External where
  /-- The commands are there, and Docker Compose v2. -/
  commands : Bool
  /-- `EXPECTED_MODEL_ID`, `EXPECTED_REVISION` and `EXPECTED_IMAGE`. -/
  manifest : Text × Text × Text
  /-- The check of the addresses in Python. -/
  addresses : List Text → Bool
  /-- `MEM_FRACTION_STATIC` is between 0.70 and 0.92. -/
  memFraction : Text → Bool
  /-- `SCHEDULE_CONSERVATIVENESS` is between 0.5 and 2.0. -/
  conservativeness : Text → Bool
  /-- `glm53_compose config --quiet`. -/
  composeConfig : Shell → Bool

/-- `x="$\x7bx:-d\x7d"`. -/
def defaulted (sh : Shell) (x : Var) (d : Text) : Shell := set sh x (orDefault d (sh x))

/-- The optional knobs with their defaults. -/
def normalized (sh : Shell) : Shell :=
  let sh := defaulted sh .epSize ['2']
  let sh := defaulted sh .enableTorchCompile ['0']
  let sh := defaulted sh .torchCompileMaxBs ['4']
  let sh := defaulted sh .enableMixedChunk ['0']
  let sh := defaulted sh .scheduleConservativeness "1.0".toList
  let sh := defaulted sh .enablePrefillCp ['0']
  let sh := defaulted sh .attnCpSize ['1']
  defaulted sh .cpStrategy "interleave".toList

/-- The checks up to the ports. -/
def identityChecks (ext : External) (sh : Shell) : Option Unit := do
  guard ext.commands
  guard (requiredOk sh)
  guard (remotePathsOk sh)
  guard (isRevision (text sh .modelRevision))
  guard (text sh .modelId = ext.manifest.1)
  guard (text sh .modelRevision = ext.manifest.2.1)
  guard (text sh .glm53RuntimeImage = ext.manifest.2.2)
  guard (ext.addresses
    [text sh .masterAddr, text sh .headFabricIp, text sh .workerFabricIp, text sh .ncclIbAddrRange,
      orDefault (text sh .ncclIbAddrRange) (sh .workerNcclIbAddrRange)])
  let masterPort ← sh .masterPort
  let apiPort ← sh .apiPort
  guard (isDigits masterPort)
  guard (isDigits apiPort)
  guard (atLeast (testNumber masterPort) (some 1))
  guard (atLeast (some 65535) (testNumber masterPort))
  guard (atLeast (testNumber apiPort) (some 1))
  guard (atLeast (some 65535) (testNumber apiPort))

/-- The variables that have to be digits. -/
def integerVars : List Var :=
  [.maxModelLen, .maxNumSeqs, .maxNumBatchedTokens, .cudaGraphMaxBs, .mtpNumTokens,
    .hfDownloadWorkers, .epSize, .torchCompileMaxBs, .attnCpSize]

/-- The branch `DFLASH` of the `case`. -/
def dflashChecks (sh : Shell) : Option Unit := do
  guard (text sh .mtpNumTokens = ['0'])
  guard (text sh .profileRuntimeImage ≠ [])
  guard (text sh .dflashDraftModelPath ≠ [])
  guard (["fa4".toList, "flashinfer".toList].contains (text sh .dflashDraftAttentionBackend))
  guard (text sh .mambaSsmDtype = "bfloat16".toList)
  guard (isDigits (text sh .maxMambaCacheSize))
  match arithNumber (text sh .maxNumSeqs) with
  | none => return ()  -- the refused number ends the `case`
  | some n =>
    guard (atLeast (testNumber (text sh .maxMambaCacheSize)) (some (wrap (n * 5))))
    guard (text sh .dflashDraftWindowSize = "2048".toList)

/-- The `case` over `SPECULATIVE_ALGORITHM`. -/
def speculationChecks (sh : Shell) : Option Unit := do
  let algorithm := text sh .speculativeAlgorithm
  let mtp := text sh .mtpNumTokens
  if algorithm = "NONE".toList then guard (mtp = ['0'])
  else if algorithm = "NEXTN".toList then guard (greater (testNumber mtp) (some 0))
  else if algorithm = "DFLASH".toList then dflashChecks sh
  else none

/-- The bounds of the numbers. -/
def boundChecks (sh : Shell) : Option Unit := do
  let n := fun x => testNumber (text sh x)
  guard (atLeast (n .maxModelLen) (some 4096))
  guard (atLeast (some 1048576) (n .maxModelLen))
  guard (atLeast (n .maxNumSeqs) (some 1))
  guard (atLeast (n .maxNumBatchedTokens) (some 512))
  guard (atLeast (n .cudaGraphMaxBs) (some 1))
  guard (atLeast (n .cudaGraphMaxBs) (n .maxNumSeqs))
  guard (atLeast (some 8) (n .mtpNumTokens))
  guard (atLeast (n .epSize) (some 1))
  guard (atLeast (some 2) (n .epSize))
  guard (atLeast (n .torchCompileMaxBs) (some 1))
  guard (atLeast (n .hfDownloadWorkers) (some 1))
  guard (atLeast (some 16) (n .hfDownloadWorkers))

/-- The checks of a capacity candidate. -/
def capacityChecks (sh : Shell) : Option Unit := do
  if text sh .profileTier = "capacity-candidate".toList then
    guard (greater (testNumber (text sh .maxModelLen)) (some 131072))
    guard (text sh .maxNumSeqs = ['1'])
    guard (atLeast (some 2048) (testNumber (text sh .maxNumBatchedTokens)))
    let disableCudaGraph ← sh .disableCudaGraph
    guard (disableCudaGraph = ['1'])
    guard (text sh .mtpNumTokens = ['0'])

/-- The backends, and the switches. -/
def backendChecks (sh : Shell) : Option Unit := do
  let disableCudaGraph ← sh .disableCudaGraph
  guard (isSwitch disableCudaGraph)
  let moe ← sh .moeBackend
  guard (["flashinfer_cutlass".toList, "marlin".toList, "flashinfer_trtllm".toList].contains moe)
  let prefill ← sh .dsaPrefillBackend
  let decode ← sh .dsaDecodeBackend
  guard (prefill ++ ':' :: decode = "flashinfer_sparse_mla:flashinfer_sparse_mla".toList)
  let kv ← sh .kvCacheDtype
  guard (["fp8_e4m3".toList, "bfloat16".toList].contains kv)
  guard ([orDefault ['1'] (sh .oomGuard), orDefault ['1'] (sh .startSmoke),
    orDefault ['0'] (sh .requireSwapOff), orDefault ['0'] (sh .allowUnsupportedPlatform),
    orDefault ['0'] (sh .strictFabricRoute), text sh .enableTorchCompile, text sh .enableMixedChunk,
    text sh .enablePrefillCp].all isSwitch)

/-- Mixed chunks and prefill CP. -/
def prefillChecks (sh : Shell) : Option Unit := do
  guard (!(greater (testNumber (text sh .mtpNumTokens)) (some 0) &&
    text sh .enableMixedChunk = ['1']))
  guard (["interleave".toList, "zigzag".toList].contains (text sh .cpStrategy))
  if text sh .enablePrefillCp = ['1'] then guard (text sh .attnCpSize = ['2'])
  else guard (text sh .attnCpSize = ['1'])

/-- The script up to "Configuration is valid", from the loaded shell; the shell it ends with. -/
def validate (ext : External) (loaded : Shell) : Option Shell := do
  identityChecks ext loaded
  let sh := normalized loaded
  guard (["validated".toList, "experimental".toList, "capacity-candidate".toList,
    "quarantined".toList].contains (text sh .profileTier))
  guard (integerVars.all fun x => isDigits (text sh x))
  speculationChecks sh
  boundChecks sh
  capacityChecks sh
  backendChecks sh
  let memFraction ← sh .memFractionStatic
  guard (ext.memFraction memFraction)
  guard (ext.conservativeness (text sh .scheduleConservativeness))
  prefillChecks sh
  guard (isMemoryLimit (orDefault "120g".toList (sh .containerMemoryLimit)))
  guard (!(orDefault ['1'] (sh .oomGuard) = ['1'] && text sh .apiHost ≠ "0.0.0.0".toList))
  guard (text sh .ncclIbGidIndex = [] && text sh .workerNcclIbGidIndex = [])
  guard (ext.composeConfig sh)
  return sh

/-! ### What the checks establish -/

theorem guard_bind_eq_some {p : Prop} [Decidable p] {β : Type} {f : Unit → Option β} {b : β} :
    (guard p : Option Unit).bind f = some b ↔ p ∧ f () = some b := by
  by_cases h : p <;> simp [guard, h]

/-- The variables whose defaults the script fills in. -/
def knobs : List (Var × Text) :=
  [(.epSize, ['2']), (.enableTorchCompile, ['0']), (.torchCompileMaxBs, ['4']),
    (.enableMixedChunk, ['0']), (.scheduleConservativeness, "1.0".toList),
    (.enablePrefillCp, ['0']),
    (.attnCpSize, ['1']), (.cpStrategy, "interleave".toList)]

theorem normalized_knob (sh : Shell) {k : Var × Text} (hk : k ∈ knobs) :
    normalized sh k.1 = some (orDefault k.2 (sh k.1)) := by
  simp only [knobs, List.mem_cons, List.not_mem_nil, or_false] at hk
  rcases hk with rfl | rfl | rfl | rfl | rfl | rfl | rfl | rfl <;>
    simp only [normalized, defaulted, set_self, set_of_ne, ne_eq, reduceCtorEq, not_false_eq_true]

theorem normalized_of_notMem (sh : Shell) {x : Var} (hx : x ∉ knobs.map (·.1)) :
    normalized sh x = sh x := by
  simp only [knobs, List.map_cons, List.map_nil, List.mem_cons, List.not_mem_nil, or_false,
    not_or] at hx
  simp only [normalized, defaulted]
  simp only [set_of_ne, hx, ne_eq, not_false_eq_true]

theorem speculationChecks_spec {sh : Shell} (h : speculationChecks sh = some ()) :
    (text sh .speculativeAlgorithm = "NEXTN".toList ∧
        greater (testNumber (text sh .mtpNumTokens)) (some 0) = true) ∨
      (text sh .speculativeAlgorithm ∈ ["NONE".toList, "DFLASH".toList] ∧
        text sh .mtpNumTokens = ['0']) := by
  simp only [speculationChecks] at h
  split_ifs at h with hnone hnextn hdflash
  · exact .inr ⟨by simp [hnone], (Option.guard_eq_some' _).mp h⟩
  · exact .inl ⟨hnextn, (Option.guard_eq_some' _).mp h⟩
  · refine .inr ⟨by simp [hdflash], ?_⟩
    simp only [dflashChecks, Option.bind_eq_bind, guard_bind_eq_some] at h
    exact h.1

theorem boundChecks_spec {sh : Shell} (h : boundChecks sh = some ()) :
    atLeast (some 8) (testNumber (text sh .mtpNumTokens)) = true ∧
      atLeast (testNumber (text sh .epSize)) (some 1) = true ∧
      atLeast (some 2) (testNumber (text sh .epSize)) = true := by
  simp only [boundChecks, Option.bind_eq_bind, guard_bind_eq_some] at h
  exact ⟨h.2.2.2.2.2.2.1, h.2.2.2.2.2.2.2.1, h.2.2.2.2.2.2.2.2.1⟩

theorem backendChecks_spec {sh : Shell} (h : backendChecks sh = some ()) :
    isSwitch (text sh .disableCudaGraph) = true ∧ isSwitch (text sh .enableTorchCompile) = true ∧
      isSwitch (text sh .enableMixedChunk) = true ∧ isSwitch (text sh .enablePrefillCp) = true := by
  simp only [backendChecks, Option.bind_eq_bind, ↓guard_bind_eq_some, Option.bind_eq_some_iff] at h
  obtain ⟨disable, hdisable, hswitch, moe, -, -, prefill, -, decode, -, -, kv, -, -, h⟩ := h
  have hall : [orDefault ['1'] (sh .oomGuard), orDefault ['1'] (sh .startSmoke),
      orDefault ['0'] (sh .requireSwapOff), orDefault ['0'] (sh .allowUnsupportedPlatform),
      orDefault ['0'] (sh .strictFabricRoute), text sh .enableTorchCompile,
      text sh .enableMixedChunk, text sh .enablePrefillCp].all isSwitch = true :=
    (Option.guard_eq_some' _).mp h
  rw [List.all_eq_true] at hall
  refine ⟨?_, hall _ (by simp), hall _ (by simp), hall _ (by simp)⟩
  rw [text, hdisable, orDefault_nil_some]
  exact hswitch

theorem prefillChecks_spec {sh : Shell} (h : prefillChecks sh = some ()) :
    text sh .cpStrategy ∈ ["interleave".toList, "zigzag".toList] ∧
      text sh .attnCpSize ∈ [['1'], ['2']] := by
  simp only [prefillChecks, Option.bind_eq_bind, guard_bind_eq_some] at h
  refine ⟨List.contains_iff_mem.mp h.2.1, ?_⟩
  have hattn := h.2.2
  split_ifs at hattn
  · have : text sh .attnCpSize = ['2'] := (Option.guard_eq_some' _).mp hattn
    rw [this]
    decide
  · have : text sh .attnCpSize = ['1'] := (Option.guard_eq_some' _).mp hattn
    rw [this]
    decide

/-- What a validated configuration keeps to, as far as the container looks at it. -/
structure Validated (sh : Shell) : Prop where
  integers : ∀ x ∈ integerVars, isDigits (text sh x) = true
  speculation : speculationChecks sh = some ()
  bounds : boundChecks sh = some ()
  backends : backendChecks sh = some ()
  prefill : prefillChecks sh = some ()

theorem validate_spec {ext : External} {loaded sh : Shell} (h : validate ext loaded = some sh) :
    sh = normalized loaded ∧ Validated sh := by
  simp only [validate, Option.bind_eq_bind, ↓guard_bind_eq_some, Option.bind_eq_some_iff] at h
  obtain ⟨_, -, -, hint, _, hspec, _, hbound, _, -, _, hback, _, -, -, -, _, hpre, -, -, -, -,
    h⟩ := h
  cases h
  exact ⟨rfl, List.all_eq_true.mp hint, hspec, hbound, hback, hpre⟩

/-! ### A configuration -/

/-- The audited image. -/
def exampleImage : Text :=
  ("ghcr.io/0xsero/glm-5.3-flash-sglang-sm121@sha256:" ++
    "f9ac60ba4071f8acd64f0f3c074aca308f6d659405fee46fc8031489a1e8b19b").toList

/-- An `.env.glm53` made from the example file. -/
def exampleEnv : EnvFile :=
  [(.workerHost, "10.10.10.2".toList), (.workerDir, "/home/glm/recipe".toList),
    (.sshPort, "22".toList), (.headFabricIp, "10.10.10.1".toList),
    (.workerFabricIp, "10.10.10.2".toList), (.masterAddr, "10.10.10.1".toList),
    (.masterPort, "25000".toList), (.ncclIbHca, "rocep1s0f1".toList),
    (.ncclSocketIfname, "enp1s0f1np1".toList), (.tpSocketIfname, "enp1s0f1np1".toList),
    (.glooSocketIfname, "enp1s0f1np1".toList), (.ncclIbAddrRange, "10.10.10.0/24".toList),
    (.modelId, "LibertAIDAI/GLM-5.3-Flash-NVFP4".toList),
    (.modelRevision, "f4aa9ef9b180d608b924fade8983dca18b9bcdf7".toList),
    (.glm53RuntimeImage, exampleImage), (.hfCache, "/home/glm/.cache/huggingface".toList),
    (.hfDownloadWorkers, "4".toList), (.apiHost, "0.0.0.0".toList),
    (.apiAdvertiseHost, "192.168.1.10".toList), (.apiPort, "8888".toList)]

/-- The profile `32k-mtp`, with a number of tokens. -/
def profileMtp (tokens : Text) : EnvFile :=
  [(.maxModelLen, "32768".toList), (.maxNumSeqs, "1".toList), (.maxNumBatchedTokens, "4096".toList),
    (.memFractionStatic, "0.90".toList), (.kvCacheDtype, "fp8_e4m3".toList),
    (.moeBackend, "flashinfer_cutlass".toList),
    (.dsaPrefillBackend, "flashinfer_sparse_mla".toList),
    (.dsaDecodeBackend, "flashinfer_sparse_mla".toList), (.cudaGraphMaxBs, "1".toList),
    (.disableCudaGraph, "0".toList), (.mtpNumTokens, tokens)]

/-- The inputs of `validate-env.sh 32k-mtp` in an empty environment. -/
def exampleInputs (envFile : EnvFile) (tokens : Text) : Inputs where
  ambient := fun _ => none
  envFile := envFile
  profiles := fun name => if name = "32k-mtp".toList then some (profileMtp tokens) else none
  requested := "32k-mtp".toList

/-- An outside that agrees with the example. -/
def exampleExternal : External where
  commands := true
  manifest := ("LibertAIDAI/GLM-5.3-Flash-NVFP4".toList,
    "f4aa9ef9b180d608b924fade8983dca18b9bcdf7".toList,
    exampleImage)
  addresses := fun _ => true
  memFraction := fun _ => true
  conservativeness := fun _ => true
  composeConfig := fun _ => true

end Glm53Serve.Sglang
