import Glm53Serve.Sglang.Validate

/-!
# The command of the container

The command checks its environment again, builds the arguments of the server and starts it.
It tells the forms of a number apart where `validate-env.sh` compares values: `EP_SIZE` has to
be the text 1 or 2, and `MTP_NUM_TOKENS + 1` reads a leading zero as octal.

## The model

`containerCommand` is `none` where the command exits, also on a variable that is not set. The
arguments are flags with their values. A number that `$(( ))` refuses ends the `if` over the
speculation and leaves its arguments out; the command goes on to the `exec`.

## What is proved

* `containerEnv_knobs` — the container gets the values that were validated.
* `containerCommand_checks` — of the command's own checks only the one of `EP_SIZE` can fail.
* `validate_boots_iff` — a validated configuration starts the server as it was validated exactly
  when `EP_SIZE` has no leading zero and `MTP_NUM_TOKENS` is no eight with a leading zero.
-/

namespace Glm53Serve.Sglang

open Py Environ Sh

/-! ### The command -/

/-- An argument of the server. -/
structure Arg where
  flag : String
  value : Option Text

/-- The variables that the command reads as `$X` in any case. -/
def commandVars : List Var :=
  [.disableCudaGraph, .mtpNumTokens, .modelSnapshotContainer, .servedModelName, .apiHost, .apiPort,
    .nodeRank, .masterAddr, .masterPort, .maxModelLen, .dsaPrefillBackend, .dsaDecodeBackend,
    .kvCacheDtype, .moeBackend, .maxNumBatchedTokens, .maxNumSeqs, .memFractionStatic,
    .cudaGraphMaxBs, .apiKey, .speculativeAlgorithm]

/-- The `case`s at the head of the command. -/
def containerChecks (env : Shell) : Bool :=
  isSwitch (text env .disableCudaGraph) && isDigits (text env .mtpNumTokens) &&
    ["NONE".toList, "NEXTN".toList, "DFLASH".toList].contains
      (orDefault "NONE".toList (env .speculativeAlgorithm)) &&
    [['1'], ['2']].contains (orDefault ['2'] (env .epSize)) &&
    isSwitch (orDefault ['0'] (env .enableTorchCompile)) &&
    isDigits (orDefault ['4'] (env .torchCompileMaxBs)) &&
    isSwitch (orDefault ['0'] (env .enableMixedChunk)) &&
    isSwitch (orDefault ['0'] (env .enablePrefillCp)) &&
    [['1'], ['2']].contains (orDefault ['1'] (env .attnCpSize)) &&
    ["interleave".toList, "zigzag".toList].contains
      (orDefault "interleave".toList (env .cpStrategy))

/-- The optional NCCL knobs. -/
def ncclKnobs : List Var :=
  [.ncclIbMergeNics, .ncclIbQpsPerConnection, .ncclNetGdrLevel, .ncclDmabufEnable]

/-- The loop that unsets the NCCL knobs that are empty. -/
def unsetEmpty (env : Shell) : Shell := fun x =>
  if x ∈ ncclKnobs ∧ text env x = [] then none else env x

/-- The arguments that every server gets. -/
def baseArgs (env : Shell) : List Arg :=
  [⟨"--model-path", text env .modelSnapshotContainer⟩,
    ⟨"--served-model-name", text env .servedModelName⟩,
    ⟨"--host", text env .apiHost⟩,
    ⟨"--port", text env .apiPort⟩,
    ⟨"--tp-size", ['2']⟩,
    ⟨"--ep-size", orDefault ['2'] (env .epSize)⟩,
    ⟨"--nnodes", ['2']⟩,
    ⟨"--node-rank", text env .nodeRank⟩,
    ⟨"--dist-init-addr", text env .masterAddr ++ ':' :: text env .masterPort⟩,
    ⟨"--context-length", text env .maxModelLen⟩,
    ⟨"--quantization", "modelopt_fp4".toList⟩,
    ⟨"--attention-backend", "dsa".toList⟩,
    ⟨"--dsa-prefill-backend", text env .dsaPrefillBackend⟩,
    ⟨"--dsa-decode-backend", text env .dsaDecodeBackend⟩,
    ⟨"--linear-attn-backend", "triton".toList⟩,
    ⟨"--kv-cache-dtype", text env .kvCacheDtype⟩,
    ⟨"--moe-runner-backend", text env .moeBackend⟩,
    ⟨"--disable-shared-experts-fusion", none⟩,
    ⟨"--chunked-prefill-size", text env .maxNumBatchedTokens⟩,
    ⟨"--max-prefill-tokens", text env .maxNumBatchedTokens⟩,
    ⟨"--max-running-requests", text env .maxNumSeqs⟩,
    ⟨"--mem-fraction-static", text env .memFractionStatic⟩,
    ⟨"--cuda-graph-max-bs-decode", text env .cudaGraphMaxBs⟩,
    ⟨"--media-url-max-file-size-mb", "1024".toList⟩,
    ⟨"--enable-multimodal", none⟩,
    ⟨"--reasoning-parser", "glm45".toList⟩,
    ⟨"--tool-call-parser", "glm47".toList⟩]

/-- The optional arguments before the speculation. -/
def memoryArgs (env : Shell) : List Arg :=
  (if text env .apiKey ≠ [] then [⟨"--api-key", text env .apiKey⟩] else []) ++
    (if text env .disableCudaGraph = ['1'] then [⟨"--disable-cuda-graph", none⟩] else []) ++
    (if text env .mambaSsmDtype ≠ [] then
      [⟨"--mamba-ssm-dtype", text env .mambaSsmDtype⟩] else []) ++
    (if text env .maxMambaCacheSize ≠ [] then
      [⟨"--max-mamba-cache-size", text env .maxMambaCacheSize⟩] else [])

/-- A number as `$\x7bx\x7d` writes it. -/
def decimal (n : ℤ) : Text := (toString n).toList

/-- The `if` over the speculation; `none` is a refused number. -/
def speculationArgs (env : Shell) : Option (List Arg) :=
  if text env .speculativeAlgorithm = "NEXTN".toList then
    (arithNumber (text env .mtpNumTokens)).map fun n =>
      [⟨"--speculative-algorithm", "NEXTN".toList⟩,
        ⟨"--speculative-num-steps", text env .mtpNumTokens⟩,
        ⟨"--speculative-eagle-topk", ['1']⟩,
        ⟨"--speculative-num-draft-tokens", decimal (wrap (n + 1))⟩,
        ⟨"--speculative-adaptive", none⟩]
  else if text env .speculativeAlgorithm = "DFLASH".toList then
    some [⟨"--speculative-algorithm", "DFLASH".toList⟩,
      ⟨"--speculative-draft-model-path", text env .dflashDraftModelPath⟩,
      ⟨"--speculative-draft-attention-backend", text env .dflashDraftAttentionBackend⟩,
      ⟨"--speculative-draft-window-size", text env .dflashDraftWindowSize⟩]
  else some []

/-- The arguments behind the speculation. -/
def experimentArgs (env : Shell) : List Arg :=
  ⟨"--schedule-conservativeness", orDefault "1.0".toList (env .scheduleConservativeness)⟩ ::
    (if orDefault ['0'] (env .enableTorchCompile) = ['1'] then
      [⟨"--enable-torch-compile", none⟩,
        ⟨"--torch-compile-max-bs", orDefault ['4'] (env .torchCompileMaxBs)⟩] else []) ++
    (if orDefault ['0'] (env .enableMixedChunk) = ['1'] then
      [⟨"--enable-mixed-chunk", none⟩] else []) ++
    (if orDefault ['0'] (env .enablePrefillCp) = ['1'] then
      [⟨"--enable-prefill-cp", none⟩, ⟨"--attn-cp-size", orDefault ['2'] (env .attnCpSize)⟩,
        ⟨"--cp-strategy", orDefault "interleave".toList (env .cpStrategy)⟩] else [])

/-- The start of the server: its environment and arguments, and whether a number was refused on
the way. -/
structure Start where
  env : Shell
  args : List Arg
  refused : Bool

/-- The command up to the `exec`. -/
def containerCommand (env : Shell) : Option Start :=
  if commandVars.all (fun x => (env x).isSome) && containerChecks env then
    some
      { env := unsetEmpty env
        args := baseArgs env ++ memoryArgs env ++ (speculationArgs env).getD [] ++
          experimentArgs env
        refused := (speculationArgs env).isNone }
  else none

/-- The values given with a flag. -/
def values (flag : String) (args : List Arg) : List (Option Text) :=
  (args.filter (·.flag = flag)).map (·.value)

/-- The server is started as the configuration `sh` was validated. -/
structure Start.Selects (s : Start) (sh : Shell) : Prop where
  noError : s.refused = false
  algorithm : values "--speculative-algorithm" s.args =
    if text sh .speculativeAlgorithm = "NONE".toList then
      [] else [some (text sh .speculativeAlgorithm)]
  draftTokens : values "--speculative-num-draft-tokens" s.args =
    if text sh .speculativeAlgorithm = "NEXTN".toList then
      [some (decimal (value 10 (text sh .mtpNumTokens) + 1))] else []
  epSize : values "--ep-size" s.args = [some (text sh .epSize)]
  prefillCp : values "--enable-prefill-cp" s.args = if text sh .enablePrefillCp = ['1'] then
    [none] else []
  attnCpSize : values "--attn-cp-size" s.args =
    if text sh .enablePrefillCp = ['1'] then [some (text sh .attnCpSize)] else []
  cpStrategy : values "--cp-strategy" s.args =
    if text sh .enablePrefillCp = ['1'] then [some (text sh .cpStrategy)] else []

/-- `EP_SIZE` has no leading zero, and `MTP_NUM_TOKENS` is no eight with a leading zero. -/
def NoOctal (sh : Shell) : Prop :=
  (orDefault ['2'] (sh .epSize)).head? ≠ some '0' ∧
    ¬((text sh .mtpNumTokens).head? = some '0' ∧ value 10 (text sh .mtpNumTokens) = 8)

/-! ### The values that reach the container -/

/-- The variables that decide the speculation, the parallelism and the checks, with the defaults
of the compose file. -/
def launchVars : List (Var × Text) :=
  [(.disableCudaGraph, ['0']), (.mtpNumTokens, ['0']), (.speculativeAlgorithm, "NONE".toList),
    (.epSize, ['2']), (.enableTorchCompile, ['0']), (.torchCompileMaxBs, ['4']),
    (.enableMixedChunk, ['0']), (.enablePrefillCp, ['0']), (.attnCpSize, ['1']),
    (.cpStrategy, "interleave".toList)]

theorem containerEnv_launch (lookup : Shell) {k : Var × Text} (hk : k ∈ launchVars) :
    containerEnv lookup k.1 = some (orDefault k.2 (lookup k.1)) := by
  simp only [launchVars, List.mem_cons, List.not_mem_nil, or_false] at hk
  rcases hk with rfl | rfl | rfl | rfl | rfl | rfl | rfl | rfl | rfl | rfl <;> rfl

theorem containerEnv_isSome (lookup : Shell) {x : Var} (hx : x ∈ commandVars) :
    (containerEnv lookup x).isSome = true := by
  have : ∀ x ∈ commandVars, (environment.find? (·.var = x)).isSome = true := by decide
  rw [containerEnv, Option.isSome_map]
  exact this x hx

/-- The validated values, with the defaults of the script, are what the container gets. -/
theorem containerEnv_knobs {i : Inputs} {l : Loaded} (hl : loadConfig i = some l) {k : Var × Text}
    (hk : k ∈ launchVars) (hne : text (normalized l.shell) k.1 ≠ []) (d : Text) :
    orDefault d (containerEnv (headLookup i l) k.1) = text (normalized l.shell) k.1 := by
  have hrank : ∀ k ∈ launchVars, k.1 ≠ .nodeRank ∧ k.1 ≠ .headless := by decide
  have hnot : ∀ k ∈ launchVars, k ∉ knobs → k.1 ∉ knobs.map (·.1) := by decide
  have hvalue : containerEnv (headLookup i l) k.1 = some (text (normalized l.shell) k.1) := by
    rw [containerEnv_launch _ hk, headLookup_apply hl (hrank k hk).1 (hrank k hk).2]
    by_cases hknob : k ∈ knobs
    · rw [text, normalized_knob _ hknob, orDefault_nil_some]
    · rw [text, normalized_of_notMem _ (hnot k hk hknob)] at hne ⊢
      rw [orDefault_of_ne_nil hne]
  rw [hvalue, orDefault_of_ne_nil (by rwa [orDefault_nil_some]), orDefault_nil_some]

theorem isSwitch_ne_nil {t : Text} (h : isSwitch t = true) : t ≠ [] := by
  rintro rfl
  cases h

/-- None of these is empty in a validated configuration. -/
theorem Validated.ne_nil {sh : Shell} (hv : Validated sh) {k : Var × Text} (hk : k ∈ launchVars) :
    text sh k.1 ≠ [] := by
  have hint : ∀ x ∈ integerVars, text sh x ≠ [] :=
    fun x hx => (isDigits_iff.mp (hv.integers x hx)).1
  obtain ⟨hgraph, hcompile, hmixed, hcp⟩ := backendChecks_spec hv.backends
  obtain ⟨hstrategy, -⟩ := prefillChecks_spec hv.prefill
  have hspec := speculationChecks_spec hv.speculation
  simp only [launchVars, List.mem_cons, List.not_mem_nil, or_false] at hk
  rcases hk with rfl | rfl | rfl | rfl | rfl | rfl | rfl | rfl | rfl | rfl
  · exact isSwitch_ne_nil hgraph
  · exact hint _ (by decide)
  · intro h0
    rw [h0] at hspec
    revert hspec
    simp
  · exact hint _ (by decide)
  · exact isSwitch_ne_nil hcompile
  · exact hint _ (by decide)
  · exact isSwitch_ne_nil hmixed
  · exact isSwitch_ne_nil hcp
  · exact hint _ (by decide)
  · intro h0
    rw [h0] at hstrategy
    revert hstrategy
    decide

/-- What a validated configuration hands to the container. -/
def Handed (env sh : Shell) : Prop :=
  ∀ k ∈ launchVars, ∀ d, orDefault d (env k.1) = text sh k.1

theorem Handed.get {env sh : Shell} (h : Handed env sh) (x : Var) (hx : x ∈ launchVars.map (·.1))
    (d : Text) : orDefault d (env x) = text sh x := by
  obtain ⟨k, hk, rfl⟩ := List.mem_map.mp hx
  exact h k hk d

theorem Handed.text {env sh : Shell} (h : Handed env sh) (x : Var) (hx : x ∈ launchVars.map (·.1)) :
    text env x = text sh x :=
  h.get x hx []

/-! ### The checks of the container -/

/-- Of the command's own checks only the one of `EP_SIZE` can fail. -/
theorem containerChecks_iff {env sh : Shell} (hv : Validated sh) (h : Handed env sh) :
    containerChecks env = true ↔ text sh .epSize ∈ [['1'], ['2']] := by
  obtain ⟨hgraph, hcompile, hmixed, hcp⟩ := backendChecks_spec hv.backends
  obtain ⟨hstrategy, hattn⟩ := prefillChecks_spec hv.prefill
  have hmtp := hv.integers .mtpNumTokens (by decide)
  have hbs := hv.integers .torchCompileMaxBs (by decide)
  have halg : text sh .speculativeAlgorithm ∈ ["NONE".toList, "NEXTN".toList, "DFLASH".toList] := by
    rcases speculationChecks_spec hv.speculation with ⟨he, -⟩ | ⟨he, -⟩
    · rw [he]
      decide
    · simp only [List.mem_cons, List.not_mem_nil, or_false] at he ⊢
      exact he.elim .inl fun he => .inr (.inr he)
  rw [containerChecks, h.text _ (by decide), h.text _ (by decide), h.get _ (by decide),
    h.get _ (by decide), h.get _ (by decide), h.get _ (by decide), h.get _ (by decide),
    h.get _ (by decide), h.get _ (by decide), h.get _ (by decide), hgraph, hcompile,
    hmixed, hcp, hmtp,
    hbs]
  simp only [Bool.true_and, Bool.and_true, Bool.and_eq_true, List.contains_iff_mem]
  exact ⟨fun hc => hc.1.1.2, fun hep => ⟨⟨⟨halg, hep⟩, hattn⟩, hstrategy⟩⟩

/-- Digits of the value one or two are a single digit unless there is a zero before it. -/
theorem epSize_iff {sh : Shell} (hv : Validated sh) :
    text sh .epSize ∈ [['1'], ['2']] ↔ (text sh .epSize).head? ≠ some '0' := by
  obtain ⟨-, hge, hle⟩ := boundChecks_spec hv.bounds
  have hdigits := hv.integers .epSize (by decide)
  generalize text sh .epSize = ep at hge hle hdigits ⊢
  rw [testNumber_digits hdigits] at hge hle
  split_ifs at hge hle with hbig
  · cases hge
  · simp only [atLeast, decide_eq_true_eq] at hge hle
    obtain ⟨k, c, rfl, hc, hval⟩ := eq_zeros_digit hdigits (by omega)
    have hcase : c = '1' ∨ c = '2' := by
      have h1 : c.toNat - '0'.toNat = 1 ∨ c.toNat - '0'.toNat = 2 := by omega
      exact h1.imp (eq_of_digit hc (by decide)) (eq_of_digit hc (by decide))
    cases k with
    | zero => rcases hcase with rfl | rfl <;> decide
    | succ k => simp [List.replicate_succ]

/-! ### The speculation -/

theorem mtp_le_eight {sh : Shell} (hv : Validated sh) : value 10 (text sh .mtpNumTokens) ≤ 8 := by
  obtain ⟨hle, -, -⟩ := boundChecks_spec hv.bounds
  rw [testNumber_digits (hv.integers .mtpNumTokens (by decide))] at hle
  split_ifs at hle with hbig
  · cases hle
  · simp only [atLeast, decide_eq_true_eq] at hle
    omega

/-- `MTP_NUM_TOKENS` in the arithmetic of the container. -/
theorem arithNumber_mtp {sh : Shell} (hv : Validated sh) :
    arithNumber (text sh .mtpNumTokens) =
      if (text sh .mtpNumTokens).head? = some '0' ∧ value 10 (text sh .mtpNumTokens) = 8 then none
      else some (value 10 (text sh .mtpNumTokens) : ℤ) :=
  arithNumber_le_eight (hv.integers .mtpNumTokens (by decide)) (mtp_le_eight hv)

/-- The arguments of the speculation, as they should be. -/
def expectedSpeculation (env sh : Shell) : List Arg :=
  if text sh .speculativeAlgorithm = "NEXTN".toList then
    [⟨"--speculative-algorithm", "NEXTN".toList⟩,
      ⟨"--speculative-num-steps", text sh .mtpNumTokens⟩,
      ⟨"--speculative-eagle-topk", ['1']⟩,
      ⟨"--speculative-num-draft-tokens", decimal (value 10 (text sh .mtpNumTokens) + 1)⟩,
      ⟨"--speculative-adaptive", none⟩]
  else if text sh .speculativeAlgorithm = "DFLASH".toList then
    [⟨"--speculative-algorithm", "DFLASH".toList⟩,
      ⟨"--speculative-draft-model-path", text env .dflashDraftModelPath⟩,
      ⟨"--speculative-draft-attention-backend", text env .dflashDraftAttentionBackend⟩,
      ⟨"--speculative-draft-window-size", text env .dflashDraftWindowSize⟩]
  else []

/-- The number of draft tokens is refused exactly for an eight with a leading zero. -/
theorem speculationArgs_eq {env sh : Shell} (hv : Validated sh) (h : Handed env sh) :
    speculationArgs env =
      if (text sh .mtpNumTokens).head? = some '0' ∧ value 10 (text sh .mtpNumTokens) = 8 then none
      else some (expectedSpeculation env sh) := by
  rw [speculationArgs, expectedSpeculation, h.text .speculativeAlgorithm (by decide),
    h.text .mtpNumTokens (by decide)]
  rcases speculationChecks_spec hv.speculation with ⟨halg, -⟩ | ⟨halg, hmtp⟩
  · have hle := mtp_le_eight hv
    rw [if_pos halg, if_pos halg, arithNumber_mtp hv]
    split_ifs
    · rfl
    · rw [Option.map_some, ← Nat.cast_succ, wrap_of_lt (by omega)]
  · have hne : text sh .speculativeAlgorithm ≠ "NEXTN".toList := by
      intro he
      rw [he] at halg
      revert halg
      decide
    have h8 : ¬(['0'].head? = some '0' ∧ value 10 ['0'] = 8) := by decide
    rw [hmtp, if_neg hne, if_neg hne, if_neg h8]
    split_ifs <;> rfl

/-! ### The arguments -/

theorem values_append (flag : String) (as bs : List Arg) :
    values flag (as ++ bs) = values flag as ++ values flag bs := by
  rw [values, List.filter_append, List.map_append]
  rfl

theorem values_memoryArgs {flag : String} (env : Shell)
    (hf : flag ∉
      ["--api-key", "--disable-cuda-graph", "--mamba-ssm-dtype", "--max-mamba-cache-size"]) :
    values flag (memoryArgs env) = [] := by
  simp only [List.mem_cons, List.not_mem_nil, or_false, not_or] at hf
  rw [memoryArgs]
  split_ifs <;> simp [values, Ne.symm hf.1, Ne.symm hf.2.1, Ne.symm hf.2.2.1, Ne.symm hf.2.2.2]

theorem values_experimentArgs {flag : String} (env : Shell)
    (hf : flag ∉ ["--schedule-conservativeness", "--enable-torch-compile", "--torch-compile-max-bs",
      "--enable-mixed-chunk", "--enable-prefill-cp", "--attn-cp-size", "--cp-strategy"]) :
    values flag (experimentArgs env) = [] := by
  simp only [List.mem_cons, List.not_mem_nil, or_false, not_or] at hf
  obtain ⟨h1, h2, h3, h4, h5, h6, h7⟩ := hf
  rw [experimentArgs]
  split_ifs <;>
    simp [values, Ne.symm h1, Ne.symm h2, Ne.symm h3, Ne.symm h4, Ne.symm h5,
      Ne.symm h6, Ne.symm h7]

theorem values_prefillArgs (env : Shell) :
    let cp := orDefault ['0'] (env .enablePrefillCp) = ['1']
    (values "--enable-prefill-cp" (experimentArgs env) = if cp then [none] else []) ∧
      (values "--attn-cp-size" (experimentArgs env) =
        if cp then [some (orDefault ['2'] (env .attnCpSize))] else []) ∧
      values "--cp-strategy" (experimentArgs env) =
        if cp then [some (orDefault "interleave".toList (env .cpStrategy))] else [] := by
  simp only [experimentArgs]
  split_ifs <;> simp [values]

theorem values_speculation (env : Shell) {sh : Shell} (hv : Validated sh) :
    (values "--speculative-algorithm" (expectedSpeculation env sh) =
      if text sh .speculativeAlgorithm = "NONE".toList then []
      else [some (text sh .speculativeAlgorithm)]) ∧
    values "--speculative-num-draft-tokens" (expectedSpeculation env sh) =
      if text sh .speculativeAlgorithm = "NEXTN".toList then
        [some (decimal (value 10 (text sh .mtpNumTokens) + 1))] else [] := by
  rw [expectedSpeculation]
  rcases speculationChecks_spec hv.speculation with ⟨halg, -⟩ | ⟨halg, -⟩
  · rw [halg]
    simp [values]
  · simp only [List.mem_cons, List.not_mem_nil, or_false] at halg
    rcases halg with halg | halg <;>
    · rw [halg]
      simp [values]

theorem values_speculation_other {flag : String} (env sh : Shell)
    (hf : flag ∈ ["--ep-size", "--enable-prefill-cp", "--attn-cp-size", "--cp-strategy"]) :
    values flag (expectedSpeculation env sh) = [] := by
  simp only [List.mem_cons, List.not_mem_nil, or_false] at hf
  rw [expectedSpeculation]
  rcases hf with rfl | rfl | rfl | rfl <;> split_ifs <;> simp [values]

/-- A server that is started without a refused number is started as validated. -/
theorem selects_of_args {env sh : Shell} (hv : Validated sh) (h : Handed env sh) {s : Start}
    (hrefused : s.refused = false)
    (hargs : s.args =
      baseArgs env ++ memoryArgs env ++ expectedSpeculation env sh ++ experimentArgs env) :
    s.Selects sh := by
  have hsplit : ∀ flag ∈ ["--speculative-algorithm", "--speculative-num-draft-tokens", "--ep-size",
      "--enable-prefill-cp", "--attn-cp-size", "--cp-strategy"],
      values flag s.args = values flag (baseArgs env) ++ values flag (expectedSpeculation env sh) ++
        values flag (experimentArgs env) := by
    intro flag hf
    rw [hargs, values_append, values_append, values_append, values_memoryArgs, List.append_nil]
    intro hm
    revert hm hf
    simp only [List.mem_cons, List.not_mem_nil, or_false]
    rintro (rfl | rfl | rfl | rfl | rfl | rfl) <;> simp
  have hbase : ∀ flag ∈ ["--speculative-algorithm", "--speculative-num-draft-tokens",
      "--enable-prefill-cp", "--attn-cp-size", "--cp-strategy"],
          values flag (baseArgs env) = [] := by
    intro flag hf
    simp only [List.mem_cons, List.not_mem_nil, or_false] at hf
    rcases hf with rfl | rfl | rfl | rfl | rfl <;> simp [values, baseArgs]
  obtain ⟨hcp, hattn, hstrategy⟩ := values_prefillArgs env
  obtain ⟨halgorithm, hdraft⟩ := values_speculation env hv
  rw [h.get .enablePrefillCp (by decide)] at hcp hattn hstrategy
  rw [h.get .attnCpSize (by decide)] at hattn
  rw [h.get .cpStrategy (by decide)] at hstrategy
  constructor
  · exact hrefused
  · rw [hsplit _ (by simp), hbase _ (by simp), halgorithm, values_experimentArgs _ (by simp),
      List.nil_append, List.append_nil]
  · rw [hsplit _ (by simp), hbase _ (by simp), hdraft, values_experimentArgs _ (by simp),
      List.nil_append, List.append_nil]
  · rw [hsplit _ (by simp), values_speculation_other _ _ (by simp),
      values_experimentArgs _ (by simp),
      ← h.get .epSize (by decide) ['2']]
    simp [values, baseArgs]
  · rw [hsplit _ (by simp), hbase _ (by simp), values_speculation_other _ _ (by simp), hcp,
      List.nil_append, List.nil_append]
  · rw [hsplit _ (by simp), hbase _ (by simp), values_speculation_other _ _ (by simp), hattn,
      List.nil_append, List.nil_append]
  · rw [hsplit _ (by simp), hbase _ (by simp), values_speculation_other _ _ (by simp), hstrategy,
      List.nil_append, List.nil_append]

/-- A validated configuration starts the server as it was validated exactly when `EP_SIZE` has
no leading zero and `MTP_NUM_TOKENS` is no eight with a leading zero. -/
theorem validate_boots_iff {i : Inputs} {l : Loaded} {ext : External} {sh : Shell}
    (hl : loadConfig i = some l) (hv : validate ext l.shell = some sh) :
    (∃ s, containerCommand (containerEnv (headLookup i l)) = some s ∧ s.Selects sh) ↔
      NoOctal l.shell := by
  obtain ⟨rfl, hv⟩ := validate_spec hv
  have hh : Handed (containerEnv (headLookup i l)) (normalized l.shell) :=
    fun k hk d => containerEnv_knobs hl hk (hv.ne_nil hk) d
  have hep : text (normalized l.shell) .epSize = orDefault ['2'] (l.shell .epSize) := by
    rw [text, normalized_knob l.shell (k := (.epSize, ['2'])) (by decide), orDefault_nil_some]
  have hmtp : text (normalized l.shell) .mtpNumTokens = text l.shell .mtpNumTokens := by
    rw [text, normalized_of_notMem _ (by decide), text]
  have hset : commandVars.all (fun x => (containerEnv (headLookup i l) x).isSome) = true :=
    List.all_eq_true.mpr fun x hx => containerEnv_isSome _ hx
  have hchecks := (containerChecks_iff hv hh).trans (epSize_iff hv)
  have hspec := speculationArgs_eq hv hh
  rw [NoOctal, ← hep, ← hmtp]
  rw [containerCommand, hset, Bool.true_and]
  constructor
  · rintro ⟨s, hs, hsel⟩
    split_ifs at hs with hc
    cases hs
    refine ⟨hchecks.mp hc, fun h8 => ?_⟩
    have hrefused := hsel.noError
    rw [hspec, if_pos h8] at hrefused
    cases hrefused
  · rintro ⟨hzero, h8⟩
    rw [if_neg h8] at hspec
    rw [if_pos (hchecks.mpr hzero), hspec]
    exact ⟨_, rfl, selects_of_args hv hh rfl rfl⟩

/-! ### Eight tokens with a leading zero -/

theorem octal_loads : (loadConfig (exampleInputs exampleEnv "08".toList)).isSome = true := by
  decide +kernel

/-- The configuration of the profile `32k-mtp` with `MTP_NUM_TOKENS=08`. -/
def octalLoaded : Loaded := (loadConfig (exampleInputs exampleEnv "08".toList)).get octal_loads

theorem octal_validates : (validate exampleExternal octalLoaded.shell).isSome = true := by
  decide +kernel

/-- What its validation ends with. -/
def octalValidated : Shell := (validate exampleExternal octalLoaded.shell).get octal_validates

/-- The configuration is valid, and the container refuses the number. -/
theorem octal_not_boots :
    validate exampleExternal octalLoaded.shell = some octalValidated ∧
      ¬∃ s, containerCommand (containerEnv (headLookup (exampleInputs exampleEnv "08".toList)
        octalLoaded)) = some s ∧ s.Selects octalValidated := by
  refine ⟨(Option.some_get octal_validates).symm, ?_⟩
  rintro ⟨s, hs, hsel⟩
  have hrefused : (containerCommand (containerEnv (headLookup
      (exampleInputs exampleEnv "08".toList) octalLoaded))).map (·.refused) = some true := by
    decide +kernel
  rw [hs, Option.map_some, hsel.noError] at hrefused
  cases hrefused

/-- The condition decides this configuration. -/
theorem validate_boots_iff_octal :
    (∃ s, containerCommand (containerEnv (headLookup (exampleInputs exampleEnv "08".toList)
        octalLoaded)) = some s ∧ s.Selects octalValidated) ↔ NoOctal octalLoaded.shell :=
  validate_boots_iff (Option.some_get octal_loads).symm (Option.some_get octal_validates).symm

end Glm53Serve.Sglang
