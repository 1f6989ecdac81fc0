import Glm53Serve.Exl3.Experts

/-!
# The fused EXL3 apply

`apply_exl3_fused_moe` of `exl3.py`: one launch of the fused kernel where every expert fits
its temporary rows, and seven ways to serve a batch in which some expert does not. The
routing is sorted by expert once; every way reads slices of that buffer.

## The model

The layer is what the weight load leaves (`Layer`, with what the load establishes as
fields). `FatState` is the part of `_EXL3_FAT_DIAG` that a call changes, with the two labels
a call leaves on its layer. A call that raises returns the state at that point.

The fat GEMMs of the repository check their arguments. Of the checks, that of the bits can fail
on a loaded layer (`kernelBits`) whose widths are multiples of 128, as the Hadamard transforms of
the extension need them.

Left out: the routing statistics and the log lines, which no result depends on; the scratch
buffers of the batched path, which are larger than the rows they hold, but not the row count
that their allocation reads; the bits and the constant flags a launch passes on to the kernel.

## What is proved

* `forFatExperts_eq` — the loops over the fat experts visit the segments of the sorted
  buffer.
* `Layer.load` — a loaded layer has the fields' properties.
-/

namespace Glm53Serve.Exl3

open Torch Segments

/-! ### Configuration -/

/-- The environment variables of `_fat_scratch`, where set. -/
structure ScratchEnv where
  /-- `EXL3_FAT_SCRATCH_ROWS` -/
  fatScratchRows : Option Py.Text
  /-- `MAX_NUM_BATCHED_TOKENS` -/
  maxNumBatchedTokens : Option Py.Text

/-- `int(os.environ.get(...) or 0)`; `none` where `int` raises. -/
def ScratchEnv.configured (env : ScratchEnv) : Option ℤ :=
  let raw := env.fatScratchRows.getD (env.maxNumBatchedTokens.getD ['0'])
  if raw = [] then some 0 else Py.int raw

/-- The environment variables, where set. -/
structure Env where
  /-- `EXL3_MOE_ROW_TILE` -/
  moeRowTile : Option Py.Text
  /-- `EXL3_FAT_SORTED` -/
  fatSorted : Option Py.Text
  /-- `EXL3_FAT_BATCHED` -/
  fatBatched : Option Py.Text
  /-- `EXL3_FAT_KERNEL` -/
  fatKernel : Option Py.Text
  /-- `EXL3_FAT_PIPELINE` -/
  fatPipeline : Option Py.Text
  /-- `EXL3_TEMP_ROWS_FUSED` -/
  tempRows : Option Py.Text
  scratch : ScratchEnv

/-- `os.environ.get(name, "0") != "0"`. -/
def enabled (value : Option Py.Text) : Bool := value.getD ['0'] ≠ ['0']

def Env.fusedMoeRowTileEnabled (env : Env) : Bool := enabled env.moeRowTile
def Env.sortedFatFallbackEnabled (env : Env) : Bool := enabled env.fatSorted
def Env.batchedFatFallbackEnabled (env : Env) : Bool := enabled env.fatBatched
def Env.fatKernelEnabled (env : Env) : Bool := enabled env.fatKernel
def Env.fatPipelineEnabled (env : Env) : Bool := enabled env.fatPipeline

/-- `temp_rows_fused`; `none` where `int` raises. -/
def Env.tempRowsFused (env : Env) : Option ℕ :=
  let raw := Py.strip (env.tempRows.getD [])
  if raw = [] then some 128 else (Py.int raw).map fun n => (max 1 n).toNat

theorem Env.one_le_tempRowsFused {env : Env} {rows : ℕ} (h : env.tempRowsFused = some rows) :
    1 ≤ rows := by
  unfold Env.tempRowsFused at h
  simp only at h
  split_ifs at h with hraw
  · cases h
    decide
  · obtain ⟨n, -, rfl⟩ := Option.map_eq_some_iff.mp h
    omega

/-! ### A loaded layer -/

/-- What the weight load leaves on a layer. -/
structure Layer (S P : Type*) where
  /-- `_exl3_inners`. -/
  inners : List (Pack S P)
  /-- `_exl3_shared_w13_suh`. -/
  sharedW13Suh : Bool
  /-- `_exl3_ptrs`, where built. -/
  ptrs : Option (List (Pack S P))
  /-- The rows of `_exl3_fused_temps`, where allocated. -/
  fusedTemps : Option ℕ
  shared_suh : sharedW13Suh = true → ∀ pack ∈ inners, pack.gate.suh = pack.up.suh
  same_k : ∀ pack ∈ inners, pack.gate.k = pack.up.k
  ptrs_eq : ∀ l ∈ ptrs, l = inners
  one_le_temps : ∀ rows ∈ fusedTemps, 1 ≤ rows

/-- The end of `process_weights_after_loading`, where the fused state can be built. Gate and
up are slices of one tensor, so they have one number of bits. -/
def Layer.load {S P : Type*} [DecidableEq S] (env : Env) (experts : List (Pack S P))
    (hk : ∀ pack ∈ experts, pack.gate.k = pack.up.k) : Layer S P where
  inners := experts
  sharedW13Suh := experts.all fun pack => pack.gate.suh = pack.up.suh
  ptrs := env.tempRowsFused.map fun _ => experts
  fusedTemps := env.tempRowsFused
  shared_suh h := by simpa using h
  same_k := hk
  ptrs_eq l hl := by
    obtain ⟨_, -, rfl⟩ := Option.map_eq_some_iff.mp hl
    rfl
  one_le_temps _ h := Env.one_le_tempRowsFused h

/-! ### Diagnostics -/

/-- The label of the way a call went; the last four are `_FAT_TIERS`. -/
inductive FatTier where
  | none
  | rowTile
  | kernel
  | batched
  | sorted
  | legacy
  deriving DecidableEq, Repr

/-- Why. -/
inductive FatReason where
  | noFatExperts
  | thinOnly
  | rowTilePreemptsFat
  | kernelOk
  | batchedOk
  | degradedSharedSuh
  | sortedOk
  | legacyDefault
  deriving DecidableEq, Repr

/-- What a call changes besides its result. -/
structure FatState where
  prefillLayerCalls : ℕ
  thinCalls : ℕ
  rowTileCalls : ℕ
  fatExpertRuns : ℕ
  directCalls : ℕ
  scatterCalls : ℕ
  fallbackCalls : FatTier → ℕ
  fallbackReasons : FatReason → ℕ
  /-- `layer._exl3_last_fat_fallback` -/
  lastFatFallback : FatTier
  /-- `layer._exl3_last_fat_reason` -/
  lastFatReason : FatReason

/-- `_record_exl3_fat_reason`. -/
def FatState.recordFatReason (s : FatState) (reason : FatReason) : FatState :=
  { s with
    fallbackReasons :=
      Function.update s.fallbackReasons reason (s.fallbackReasons reason + 1) }

/-- `_record_exl3_fat_tier`. -/
def FatState.recordFatTier (s : FatState) (tier : FatTier) (reason : FatReason) : FatState :=
  { FatState.recordFatReason
      { s with fallbackCalls := Function.update s.fallbackCalls tier (s.fallbackCalls tier + 1) }
      reason with
    lastFatFallback := tier
    lastFatReason := reason }

/-! ### The fat experts -/

section Apply

variable {S P X I V W L : Type*} {T K : ℕ}

/-- The output and the state after a step, or what it raised and the state then. -/
abbrev Outcome (T : ℕ) (V : Type*) := Except (Err × FatState) ((Fin T → V) × FatState)

/-- `for e, n_rows in enumerate(counts_host)`, with the running offset; `body` is given the
expert, its offset and its rows, where it has more rows than `cap`. -/
def forFatExperts {σ ε : Type*} (cap : ℕ) (body : ℕ → ℕ → ℕ → σ → Except ε σ) :
    ℕ → ℕ → List ℕ → σ → Except ε σ
  | _, _, [], s => .ok s
  | e, offset, nRows :: counts, s =>
    if nRows ≤ cap then forFatExperts cap body (e + 1) (offset + nRows) counts s
    else do
      let s ← body e offset nRows s
      forFatExperts cap body (e + 1) (offset + nRows) counts s

theorem forFatExperts_append {σ ε : Type*} (cap : ℕ) (body : ℕ → ℕ → ℕ → σ → Except ε σ)
    (before counts : List ℕ) (s : σ) :
    forFatExperts cap body before.length before.sum counts s
      = (List.range' before.length counts.length).foldlM (fun s e =>
          if (before ++ counts).getD e 0 ≤ cap then .ok s
          else body e (start (before ++ counts) e) ((before ++ counts).getD e 0) s) s := by
  induction counts generalizing before s with
  | nil => rfl
  | cons c counts ih =>
    have hget : (before ++ c :: counts).getD before.length 0 = c := by simp
    have hstart : start (before ++ c :: counts) before.length = before.sum := by
      simp [start]
    have ih := ih (before ++ [c])
    simp only [List.length_append, List.length_singleton, List.sum_append, List.sum_singleton,
      List.append_assoc, List.singleton_append] at ih
    rw [List.length_cons, List.range'_succ, List.foldlM_cons, forFatExperts, hget, hstart]
    split_ifs with h
    · exact ih s
    · simp only [ih]

/-- The loop visits the fat experts in order, each at the start of its segment. -/
theorem forFatExperts_eq {σ ε : Type*} (cap : ℕ) (body : ℕ → ℕ → ℕ → σ → Except ε σ)
    (counts : List ℕ) (s : σ) :
    forFatExperts cap body 0 0 counts s
      = (List.range counts.length).foldlM (fun s e =>
          if counts.getD e 0 ≤ cap then .ok s
          else body e (start counts e) (counts.getD e 0) s) s := by
  rw [List.range_eq_range']
  exact forFatExperts_append cap body [] counts s

/-- `l[start:start + n]`. -/
def slice {α : Type*} (l : List α) (start n : ℕ) : List α := (l.drop start).take n

variable [Add V] [Mul I] [SMul W V]

/-- `apply_exl3_sorted_fat`. -/
def applyExl3SortedFat (ext : Ext S P X I V W L) (xh : Fin T → X) (tokenSorted : List (Fin T))
    (weightSorted : List W) (countsHost : List ℕ) (inners : List (Pack S P)) (limit : L)
    (cap : ℕ) (out : Fin T → V) (s : FatState) : Outcome T V :=
  forFatExperts cap (fun e offset nRows (out, s) =>
    let s := { s with fatExpertRuns := s.fatExpertRuns + 1 }
    let tokenIdx := slice tokenSorted offset nRows
    match inners[e]? with
    | none => .error (.indexError, s)
    | some pack =>
      let down := ext.runExpert limit pack (tokenIdx.map xh)
      let scale := slice weightSorted offset nRows
      .ok (indexAdd out (tokenIdx.zip (List.zipWith (fun y w => w • y) down scale)), s))
    0 0 countsHost (out, s)

/-- The bits that the fat GEMMs are compiled for. -/
def kernelBits : ℕ := 4

/-- The stacked gate and up rows of a fat expert: the direct GEMM, or the reconstructed
matrix. -/
def fatGateUp (ext : Ext S P X I V W L) (gemm : Option (P × P → ℕ → X → I × I)) (useKernel : Bool)
    (pack : Pack S P) (h13 : List X) (s : FatState) :
    Except (Err × FatState) (List (I × I) × FatState) :=
  if useKernel then
    match gemm with
    | none => .error (.fatGemmMissing, s)
    | some gemm =>
      if pack.gate.k ≠ kernelBits then .error (.fatGemmBits, s)
      else
        .ok (h13.map (gemm (pack.gate.packed, pack.up.packed) pack.gate.k),
          { s with directCalls := s.directCalls + 1 })
  else
    .ok (h13.map fun h => (ext.hgemm13 pack.gate.packed pack.gate.k h,
      ext.hgemm13 pack.up.packed pack.gate.k h), s)

/-- The weighted down rows of a fat expert, added to the output. -/
def fatDown (ext : Ext S P X I V W L)
    (gemmScatter :
      Option ((T : ℕ) → List I → P → (Fin T → V) → List (Fin T) → List W → ℕ → Fin T → V))
    (useKernel : Bool) (pack : Pack S P) (h2 : List I) (tokenIdx : List (Fin T)) (scale : List W)
    (out : Fin T → V) (s : FatState) : Outcome T V :=
  if useKernel then
    match gemmScatter with
    | none => .error (.fatScatterMissing, s)
    | some gemmScatter =>
      if pack.down.k ≠ kernelBits then .error (.fatGemmBits, s)
      else
        .ok (gemmScatter T h2 pack.down.packed out tokenIdx scale pack.down.k,
          { s with scatterCalls := s.scatterCalls + 1 })
  else
    let downOut := h2.map (ext.hgemm2 pack.down.packed pack.down.k)
    .ok (indexAdd out (tokenIdx.zip (List.zipWith (fun y w => w • y) downOut scale)), s)

/-- The activation of the batched path. -/
def fatAct (ext : Ext S P X I V W L) (limit : L) (gateUp : I × I) : I :=
  let gateOut := ext.clampMax limit gateUp.1
  let upOut := ext.clamp limit gateUp.2
  ext.sigmoid gateOut * gateOut * upOut

/-- The body of the loop of `apply_exl3_batched_fat`. -/
def batchedFatStep (env : Env) (ext : Ext S P X I V W L) (gemm : Option (P × P → ℕ → X → I × I))
    (gemmScatter :
      Option ((T : ℕ) → List I → P → (Fin T → V) → List (Fin T) → List W → ℕ → Fin T → V))
    (xh : Fin T → X) (tokenSorted : List (Fin T)) (weightSorted : List W)
    (inners : List (Pack S P)) (limit : L) (useKernel : Bool) (e offset nRows : ℕ)
    (st : (Fin T → V) × FatState) : Outcome T V :=
  let s := { st.2 with fatExpertRuns := st.2.fatExpertRuns + 1 }
  let tokenIdx := slice tokenSorted offset nRows
  match inners[e]? with
  | none => .error (.indexError, s)
  | some pack =>
    -- `_fat_scratch` reads its row count for every expert
    match env.scratch.configured with
    | none => .error (.scratchRows, s)
    | some _ =>
      let h := tokenIdx.map xh
      let h13 := h.map (ext.hadR128 pack.gate.suh)
      match fatGateUp ext gemm useKernel pack h13 s with
      | .error err => .error err
      | .ok (gateUp, s) =>
        let actH := gateUp.map (fatAct ext limit)
        let h2 := actH.map (ext.hadR128Act pack.down.suh)
        fatDown ext gemmScatter useKernel pack h2 tokenIdx (slice weightSorted offset nRows) st.1 s

/-- `apply_exl3_batched_fat`. -/
def applyExl3BatchedFat (env : Env) (ext : Ext S P X I V W L) (xh : Fin T → X)
    (tokenSorted : List (Fin T)) (weightSorted : List W) (countsHost : List ℕ)
    (inners : List (Pack S P)) (limit : L) (cap : ℕ) (out : Fin T → V) (useKernel : Bool)
    (s : FatState) : Outcome T V :=
  let usePipe := useKernel && env.fatPipelineEnabled
  if usePipe && !(ext.exl3FatGemmPipe.isSome && ext.exl3FatGemmPipeScatter.isSome) then
    .error (.pipeMissing, s)
  else
    let gemm := if usePipe then ext.exl3FatGemmPipe else ext.exl3FatGemm
    let gemmScatter := if usePipe then ext.exl3FatGemmPipeScatter else ext.exl3FatGemmScatter
    forFatExperts cap
      (batchedFatStep env ext gemm gemmScatter xh tokenSorted weightSorted inners limit useKernel)
      0 0 countsHost (out, s)

/-! ### Launches -/

/-- `_exl3_moe_launch`. -/
def exl3MoeLaunch (ext : Ext S P X I V W L) (xh : Fin T → X) (out : Fin T → V)
    (expertCount : List ℕ) (tokenSorted : List (Fin T)) (weightSorted : List W) (tempRows : ℕ)
    (ptrs : List (Pack S P)) (limit : L) : Fin T → V :=
  ext.exl3Moe
    { xh, expertCount, tokenSorted, weightSorted, tempRows, ptrs, limit
      numActive := if ext.acceptsNumActive then some (-1) else none } out

/-- The rows of the sorted buffer in the tile that starts at `row0`. -/
def tileSrc (counts : List ℕ) (tile row0 : ℕ) : List ℕ :=
  let prefixes := 0 :: cumsum counts.dropLast
  let tileCounts := counts.map fun c => min (c - row0) tile
  let cum := cumsum tileCounts
  (List.range tileCounts.sum).map fun idx =>
    let expertId := searchsorted cum idx
    let localRow := idx - (cum.getD expertId 0 - tileCounts.getD expertId 0)
    prefixes.getD expertId 0 + row0 + localRow

/-- `_exl3_moe_row_tiles`. -/
def exl3MoeRowTiles (ext : Ext S P X I V W L) (xh : Fin T → X) (out : Fin T → V)
    (counts : List ℕ) (tokenSorted : List (Fin T)) (weightSorted : List W) (tempRows : ℕ)
    (ptrs : List (Pack S P)) (limit : L) (maxRows : ℕ) : Fin T → V :=
  let tile := tempRows
  let nTiles := (maxRows + tile - 1) / tile
  (List.range nTiles).foldl (fun out t =>
    let row0 := t * tile
    let tileCounts := counts.map fun c => min (c - row0) tile
    if tileCounts.sum = 0 then out
    else
      let src := tileSrc counts tile row0
      let tileEc := tileCounts ++ [0]
      exl3MoeLaunch ext xh out tileEc (indexSelect tokenSorted src) (indexSelect weightSorted src)
        tempRows ptrs limit) out

/-! ### The apply -/

/-- The routing of a batch, sorted by expert. -/
structure Routing (T : ℕ) (W : Type*) where
  expertCount : List ℕ
  tokenSorted : List (Fin T)
  weightSorted : List W

/-- The sort at the start of `apply_exl3_fused_moe`. -/
def sortRouting (argsort : Argsort) (nExp : ℕ) (localIds : List ℤ) (weights : Fin T → Fin K → W) :
    Routing T W :=
  let flatToken := (List.finRange T).flatMap fun t => List.replicate K t
  let order := argsort.order localIds
  { expertCount := scatterAddOnes (nExp + 1) (localIds.map Int.toNat)
    tokenSorted := indexSelect flatToken order
    weightSorted := indexSelect (reshape weights) order }

/-- The ways a call may go. -/
structure FatFlags where
  wantFatKernel : Bool
  wantBatchedFat : Bool
  useSortedFat : Bool
  useBatchedFat : Bool
  useFatKernel : Bool
  useRowTiles : Bool

/-- The kernel implies batching, batching implies sorting; a layer whose gate and up signs
differ is not batched. -/
def fatFlags (env : Env) (layer : Layer S P) : FatFlags :=
  let wantFatKernel := env.fatKernelEnabled
  let wantBatchedFat := env.batchedFatFallbackEnabled || wantFatKernel
  let useSortedFat := env.sortedFatFallbackEnabled || wantBatchedFat
  let useBatchedFat := wantBatchedFat && layer.sharedW13Suh
  let useFatKernel := useBatchedFat && wantFatKernel
  let useRowTiles := env.fusedMoeRowTileEnabled
  { wantFatKernel, wantBatchedFat, useSortedFat, useBatchedFat, useFatKernel, useRowTiles }

/-- The fallback of the experts that the launch skipped. -/
def applyFatFallback [Zero V] (env : Env) (ext : Ext S P X I V W L) (x2d : Fin T → X)
    (ids : Fin T → Fin K → ℤ) (weights : Fin T → Fin K → W) (layer : Layer S P)
    (expertMap : Option ExpertMap) (limit : L) (cap : ℕ) (r : Routing T W)
    (countsHost : Option (List ℕ)) (out : Fin T → V) (s : FatState) : Outcome T V :=
  let flags := fatFlags env layer
  if flags.useBatchedFat then
    let s := if flags.useFatKernel then s.recordFatTier .kernel .kernelOk
      else s.recordFatTier .batched .batchedOk
    match countsHost with
    | none => .error (.assertion, s)
    | some countsHost =>
      applyExl3BatchedFat env ext x2d r.tokenSorted r.weightSorted countsHost layer.inners limit
        cap out flags.useFatKernel s
  else if flags.useSortedFat then
    let s := s.recordFatTier .sorted (if flags.wantBatchedFat then
      .degradedSharedSuh else .sortedOk)
    match countsHost with
    | none => .error (.assertion, s)
    | some countsHost =>
      applyExl3SortedFat ext x2d r.tokenSorted r.weightSorted countsHost layer.inners limit cap
        out s
  else
    let s := s.recordFatTier .legacy .legacyDefault
    let counts := r.expertCount.take layer.inners.length
    let fat := (List.range counts.length).filter fun e => cap < counts.getD e 0
    if fat.length ≠ 0 then
      .ok (applyExl3PythonLoop ext x2d ids weights layer.inners expertMap limit (some fat)
        (some out), { s with fatExpertRuns := s.fatExpertRuns + fat.length })
    else .ok (out, s)

/-- The rows of the hottest expert: of the counts on the host, or of the tensor. -/
def maxRowsOf (countsHost : Option (List ℕ)) (counts : List ℕ) : Option ℕ :=
  match countsHost with
  | some countsHost => some (countsHost.foldl max 0)
  | none => counts.max?

/-- `apply_exl3_fused_moe` of a batch with more tokens than temporary rows. -/
def applyPrefill [Zero V] (env : Env) (ext : Ext S P X I V W L) (x2d : Fin T → X)
    (ids : Fin T → Fin K → ℤ) (weights : Fin T → Fin K → W) (layer : Layer S P)
    (ptrs : List (Pack S P)) (expertMap : Option ExpertMap) (limit : L) (cap : ℕ)
    (r : Routing T W) (s : FatState) : Outcome T V :=
  let counts := r.expertCount.take layer.inners.length
  let launch := fun out => exl3MoeLaunch ext x2d out r.expertCount r.tokenSorted r.weightSorted
    cap ptrs limit
  let s := { s with prefillLayerCalls := s.prefillLayerCalls + 1 }
  let flags := fatFlags env layer
  let launched := flags.useBatchedFat && !flags.useRowTiles
  let out := if launched then launch 0 else 0
  let countsHost := if launched || flags.useSortedFat then some counts else none
  match maxRowsOf countsHost counts with
  | none => .error (.emptyMax, s)
  | some maxRows =>
    if maxRows ≤ cap then
      let s := { s with thinCalls := s.thinCalls + 1 }.recordFatReason .thinOnly
      .ok (if launched then out else launch out, s)
    else if flags.useRowTiles then
      let s := { s with
        rowTileCalls := s.rowTileCalls + 1
        lastFatFallback := .rowTile
        lastFatReason := .rowTilePreemptsFat }.recordFatReason .rowTilePreemptsFat
      .ok (exl3MoeRowTiles ext x2d out counts r.tokenSorted r.weightSorted cap ptrs limit maxRows,
        s)
    else
      let out := if launched then out else launch out
      applyFatFallback env ext x2d ids weights layer expertMap limit cap r countsHost out s

/-- `apply_exl3_fused_moe`. -/
def applyExl3FusedMoe [Zero V] (env : Env) (ext : Ext S P X I V W L) (argsort : Argsort)
    (x2d : Fin T → X) (ids : Fin T → Fin K → ℤ) (weights : Fin T → Fin K → W) (layer : Layer S P)
    (expertMap : Option ExpertMap) (limit : L) (s : FatState) : Outcome T V :=
  match layer.ptrs, layer.fusedTemps with
  | some ptrs, some cap =>
    match mapTopkToLocal (reshape ids) layer.inners.length expertMap with
    | .error err => .error (err, s)
    | .ok localIds =>
      let r := sortRouting argsort layer.inners.length localIds weights
      let s := { s with lastFatFallback := .none, lastFatReason := .noFatExperts }
      if T ≤ cap then
        .ok (exl3MoeLaunch ext x2d 0 r.expertCount r.tokenSorted r.weightSorted cap ptrs limit, s)
      else applyPrefill env ext x2d ids weights layer ptrs expertMap limit cap r s
  | _, _ => .error (.tablesNotBuilt, s)

end Apply

end Glm53Serve.Exl3
