import Glm53Serve.Exl3.FatCounters

/-!
# The tier of the fat experts, at the load and at the call

The environment asks for a tier of the fat experts. The weight load resolves it against the
checkpoint and the image (`resolve_exl3_fat_tier`) and reports it; every call of the fused apply
then decides for itself how it goes (`fatFlags`), from the environment and the layer.

## The model

A load reads the environment, the signs of its layer and what the image and the rank are
(`Image`); the loads of a process read the same environment. `LoadDiag` is the part of
`_EXL3_FAT_DIAG` that a load writes, with the flag of the line that is logged once; the lines
themselves are the events that they report.

## What is proved

* `resolve_error_iff` — a load is refused exactly where the kernel would run and a symbol is
  missing.
* `recordResolution_ok` — what a load writes.
* `loads_diag` — the diagnostics after any number of loads.
* `apply_of_resolved` — a call goes the way that the load has resolved, and raises exactly where
  its fallback does (`Raises`).
-/

namespace Glm53Serve.Exl3

open Torch

/-! ### The resolution -/

/-- What `exl3_fat_symbols` finds. -/
structure FatSymbols where
  exl3Moe : Bool
  exl3FatGemm : Bool
  exl3FatGemmScatter : Bool

/-- `tier_reason`. -/
inductive TierReason where
  | unresolved
  | noneRequested
  | sharedSuhAbsent
  /-- `f"{configured}_ok"`. -/
  | ok (configured : FatTier)
  deriving DecidableEq, Repr

/-- `configured_fat_tier`. -/
def Env.configuredFatTier (env : Env) : FatTier :=
  if env.fatKernelEnabled then .kernel
  else if env.batchedFatFallbackEnabled then .batched
  else if env.sortedFatFallbackEnabled then .sorted
  else .legacy

/-- The symbols that the kernel needs and the image does not have. -/
def FatSymbols.missing (symbols : FatSymbols) : List String :=
  (["exl3_fat_gemm", "exl3_fat_gemm_scatter"].zip
    [symbols.exl3FatGemm, symbols.exl3FatGemmScatter]).filterMap
    fun (name, present) => if present then none else some name

/-- `resolve_exl3_fat_tier(shared_suh, symbols)`: the tier and why, or what it raises. -/
def resolveExl3FatTier (env : Env) (sharedSuh : Bool) (symbols : FatSymbols) :
    Except String (FatTier × TierReason) :=
  let configured := env.configuredFatTier
  if configured = .legacy then .ok (configured, .noneRequested)
  else if !sharedSuh ∧ (configured = .kernel ∨ configured = .batched) then
    .ok (.sorted, .sharedSuhAbsent)
  else if configured = .kernel ∧ symbols.missing ≠ [] then
    .error ("EXL3_FAT_KERNEL=1 requires exllamav3_ext." ++ "/".intercalate symbols.missing ++
      "; this image was built without the fat kernel — unset EXL3_FAT_KERNEL or serve an E2 image")
  else .ok (configured, .ok configured)

/-! ### The loads -/

/-- What a load reads of the image and of its rank. -/
structure Image where
  symbols : FatSymbols
  /-- `exl3_device_capability()`. -/
  capability : ℤ × ℤ
  /-- `_exl3_tp_rank_size()`. -/
  tp : ℤ × ℤ

/-- The load-time fields of `_EXL3_FAT_DIAG`. -/
structure LoadDiag where
  configuredTier : FatTier
  effectiveTier : FatTier
  tierReason : TierReason
  sharedSuh : Bool
  sharedSuhLayers : ℕ
  moeLayersLoaded : ℕ
  symbols : FatSymbols
  cap : ℤ × ℤ
  capOk : Bool
  tp : ℤ × ℤ
  /-- `_exl3_fat_tier_logged`. -/
  tierLogged : Bool

/-- What a line of the log reports. -/
inductive TierLog where
  /-- The tier changed between layers of one model. -/
  | changed (before after : FatTier)
  /-- Less was resolved than was asked for. -/
  | degraded
  | resolved
  deriving DecidableEq, Repr

/-- `_EXL3_FAT_DIAG` as the module is loaded. -/
def LoadDiag.start : LoadDiag where
  configuredTier := .legacy
  effectiveTier := .legacy
  tierReason := .unresolved
  sharedSuh := false
  sharedSuhLayers := 0
  moeLayersLoaded := 0
  symbols := ⟨false, false, false⟩
  cap := (-1, -1)
  capOk := false
  tp := (-1, 1)
  tierLogged := false

/-- A load: what it leaves on its layer, the diagnostics, and what it logs. -/
structure Resolution where
  /-- `_exl3_fat_effective_tier`. -/
  tier : FatTier
  /-- `_exl3_fat_tier_reason`. -/
  reason : TierReason
  diag : LoadDiag
  log : List TierLog

/-- The fields that every load writes. -/
def LoadDiag.loaded (d : LoadDiag) (env : Env) (image : Image) (sharedSuh : Bool) : LoadDiag :=
  let moeLayersLoaded := d.moeLayersLoaded + 1
  let sharedSuhLayers := if sharedSuh then d.sharedSuhLayers + 1 else d.sharedSuhLayers
  { d with
    moeLayersLoaded
    sharedSuhLayers
    sharedSuh := sharedSuhLayers = moeLayersLoaded
    configuredTier := env.configuredFatTier
    symbols := image.symbols
    cap := image.capability
    -- a comparison of pairs
    capOk := 8 < image.capability.1 ∨ (image.capability.1 = 8 ∧ 0 ≤ image.capability.2)
    tp := image.tp }

/-- The tier of the module after a load, and the line of a tier that changed. -/
def LoadDiag.mirror (d : LoadDiag) (tier : FatTier) (reason : TierReason) :
    LoadDiag × List TierLog :=
  if d.tierReason = .unresolved then ({ d with effectiveTier := tier, tierReason := reason }, [])
  else if d.effectiveTier ≠ tier then
    ({ d with effectiveTier := tier, tierReason := reason }, [.changed d.effectiveTier tier])
  else (d, [])

/-- The line that is logged once. -/
def LoadDiag.announce (d : LoadDiag) : LoadDiag × List TierLog :=
  if d.tierLogged then (d, [])
  else
    ({ d with tierLogged := true },
      [if d.effectiveTier ≠ d.configuredTier ∧ d.configuredTier ≠ .legacy then
        .degraded else .resolved])

/-- A load whose tier is resolved. -/
def LoadDiag.resolution (d : LoadDiag) (env : Env) (image : Image) (sharedSuh : Bool)
    (r : FatTier × TierReason) : Resolution :=
  let mirrored := (d.loaded env image sharedSuh).mirror r.1 r.2
  let announced := mirrored.1.announce
  { tier := r.1, reason := r.2, diag := announced.1, log := mirrored.2 ++ announced.2 }

/-- `_record_exl3_fat_resolution(layer)`. -/
def recordExl3FatResolution (env : Env) (image : Image) (sharedSuh : Bool) (d : LoadDiag) :
    Except String Resolution :=
  (resolveExl3FatTier env sharedSuh image.symbols).map (d.resolution env image sharedSuh)

/-- The loads of the layers of a model, each given by whether its gates and ups share their signs:
what each left, the diagnostics after the last and the whole log. A load that raises ends the model
load. -/
def loadLayers (env : Env) (image : Image) :
    List Bool → LoadDiag → Except String (List (FatTier × TierReason) × LoadDiag × List TierLog)
  | [], d => .ok ([], d, [])
  | sharedSuh :: layers, d => do
    let r ← recordExl3FatResolution env image sharedSuh d
    let (left, d, log) ← loadLayers env image layers r.diag
    return ((r.tier, r.reason) :: left, d, r.log ++ log)

/-! ### What is resolved -/

variable {env : Env} {image : Image}

/-- What a layer is resolved to, where the load is not refused. -/
def Env.resolved (env : Env) (sharedSuh : Bool) : FatTier × TierReason :=
  let configured := env.configuredFatTier
  if configured = .legacy then (configured, .noneRequested)
  else if !sharedSuh ∧ (configured = .kernel ∨ configured = .batched) then
    (.sorted, .sharedSuhAbsent)
  else (configured, .ok configured)

/-- The kernel would run, and the image lacks a symbol that it needs. -/
def Env.refused (env : Env) (symbols : FatSymbols) (sharedSuh : Bool) : Prop :=
  env.fatKernelEnabled = true ∧ sharedSuh = true ∧
    ¬(symbols.exl3FatGemm = true ∧ symbols.exl3FatGemmScatter = true)

theorem missing_eq_nil_iff (symbols : FatSymbols) :
    symbols.missing = [] ↔ symbols.exl3FatGemm = true ∧ symbols.exl3FatGemmScatter = true := by
  obtain ⟨moe, gemm, scatter⟩ := symbols
  cases gemm <;> cases scatter <;> simp [FatSymbols.missing]

theorem configuredFatTier_eq_kernel_iff (env : Env) : env.configuredFatTier = .kernel ↔
    env.fatKernelEnabled = true := by
  unfold Env.configuredFatTier
  split_ifs <;> simp_all

theorem resolve_eq (env : Env) (sharedSuh : Bool) (symbols : FatSymbols) :
    (env.refused symbols sharedSuh ∧
        ∃ text, resolveExl3FatTier env sharedSuh symbols = .error text) ∨
      (¬env.refused symbols sharedSuh ∧
        resolveExl3FatTier env sharedSuh symbols = .ok (env.resolved sharedSuh)) := by
  have hkernel := configuredFatTier_eq_kernel_iff env
  have hmissing := missing_eq_nil_iff symbols
  unfold resolveExl3FatTier Env.resolved Env.refused
  rw [← hkernel, ← hmissing]
  dsimp only
  split_ifs with h1 h2 h3
  · exact .inr ⟨fun h => by simp [h1] at h, rfl⟩
  · exact .inr ⟨fun h => by simp [h.2.1] at h2, rfl⟩
  · refine .inl ⟨⟨h3.1, ?_, h3.2⟩, _, rfl⟩
    cases hshared : sharedSuh with
    | true => rfl
    | false => exact absurd ⟨by simp [hshared], .inl h3.1⟩ h2
  · exact .inr ⟨fun h => h3 ⟨h.1, h.2.2⟩, rfl⟩

/-- A load is refused exactly where the kernel would run and a symbol is missing. -/
theorem resolve_error_iff (sharedSuh : Bool) (symbols : FatSymbols) :
    (∃ text, resolveExl3FatTier env sharedSuh symbols = .error text) ↔
      env.refused symbols sharedSuh := by
  rcases resolve_eq env sharedSuh symbols with ⟨hrefused, herror⟩ | ⟨hnot, hok⟩
  · exact iff_of_true herror hrefused
  · refine iff_of_false ?_ hnot
    rintro ⟨text, htext⟩
    rw [hok] at htext
    cases htext

theorem resolve_ok {sharedSuh : Bool} {symbols : FatSymbols} {r : FatTier × TierReason}
    (h : resolveExl3FatTier env sharedSuh symbols = .ok r) :
    r = env.resolved sharedSuh ∧ ¬env.refused symbols sharedSuh := by
  rcases resolve_eq env sharedSuh symbols with ⟨-, text, herror⟩ | ⟨hnot, hok⟩
  · rw [herror] at h
    cases h
  · rw [hok] at h
    exact ⟨(Except.ok.inj h).symm, hnot⟩

theorem resolved_reason_ne (env : Env) (sharedSuh : Bool) :
    (env.resolved sharedSuh).2 ≠ .unresolved := by
  unfold Env.resolved
  dsimp only
  split_ifs <;> simp

/-- In one environment, the tier says why. -/
theorem resolved_eq_of_tier {sharedSuh sharedSuh' : Bool}
    (h : (env.resolved sharedSuh).1 = (env.resolved sharedSuh').1) :
    env.resolved sharedSuh = env.resolved sharedSuh' := by
  unfold Env.resolved at h ⊢
  cases hc : env.configuredFatTier <;> cases sharedSuh <;> cases sharedSuh' <;> simp_all

/-! ### The diagnostics of the loads -/

/-- The diagnostics stand for the loads so far, of which `last` is the last one. -/
structure LoadDiag.Stands (d : LoadDiag) (env : Env) (image : Image)
    (layers : List Bool) : Prop where
  moeLayersLoaded : d.moeLayersLoaded = layers.length
  sharedSuhLayers : d.sharedSuhLayers = layers.count true
  tierLogged : d.tierLogged = !layers.isEmpty
  /-- Before the first load. -/
  unresolved : layers = [] → d = .start
  /-- The fields mirror the last load. -/
  mirrors : ∀ last ∈ layers.getLast?, (d.effectiveTier, d.tierReason) = env.resolved last ∧
    d.sharedSuh = layers.all id ∧ d.configuredTier = env.configuredFatTier ∧
    d.symbols = image.symbols ∧
    d.cap = image.capability ∧ (d.capOk = true ↔ toLex (8, 0) ≤ toLex image.capability) ∧
      d.tp = image.tp

theorem stands_start (env : Env) (image : Image) : LoadDiag.start.Stands env image [] :=
  ⟨rfl, rfl, rfl, fun _ => rfl, fun _ h => by cases h⟩

/-- The line that a load logs of the tier, after the tier before it. -/
def changeLine (before : Option FatTier) (tier : FatTier) : List TierLog :=
  match before with
  | none => []
  | some before => if before = tier then [] else [.changed before tier]

/-- The line that the first load logs. -/
def firstLine (env : Env) (tier : FatTier) : TierLog :=
  if tier ≠ env.configuredFatTier ∧ env.configuredFatTier ≠ .legacy then .degraded else .resolved

/-- The tier of the last layer. -/
def lastTier (env : Env) (layers : List Bool) : Option FatTier :=
  layers.getLast?.map fun last => (env.resolved last).1

theorem loaded_shared {d : LoadDiag} {layers : List Bool} (hd : d.Stands env image layers)
    (sharedSuh : Bool) :
    (d.loaded env image sharedSuh).moeLayersLoaded = (layers ++ [sharedSuh]).length ∧
      (d.loaded env image sharedSuh).sharedSuhLayers = (layers ++ [sharedSuh]).count true ∧
      (d.loaded env image sharedSuh).sharedSuh = (layers ++ [sharedSuh]).all id := by
  have hcount : (d.loaded env image sharedSuh).sharedSuhLayers =
      (layers ++ [sharedSuh]).count true := by
    cases sharedSuh <;> simp [LoadDiag.loaded, hd.sharedSuhLayers]
  have hloaded : (d.loaded env image sharedSuh).moeLayersLoaded =
      (layers ++ [sharedSuh]).length := by
    simp [LoadDiag.loaded, hd.moeLayersLoaded]
  refine ⟨hloaded, hcount, ?_⟩
  change decide ((d.loaded env image sharedSuh).sharedSuhLayers =
    (d.loaded env image sharedSuh).moeLayersLoaded) = _
  rw [hcount, hloaded, Bool.eq_iff_iff, decide_eq_true_iff, List.count_eq_length, List.all_eq_true]
  exact forall₂_congr fun b _ => eq_comm

/-- The fields of a load that do not go by the tier. -/
theorem loaded_stands {d d' : LoadDiag} {layers : List Bool} (hd : d.Stands env image layers)
    {sharedSuh : Bool}
    (htier : (d'.effectiveTier, d'.tierReason) = env.resolved sharedSuh)
    (hrest : d' = { d.loaded env image sharedSuh with
      effectiveTier := d'.effectiveTier, tierReason := d'.tierReason, tierLogged := true }) :
    d'.Stands env image (layers ++ [sharedSuh]) := by
  obtain ⟨hloaded, hcount, hshared⟩ := loaded_shared hd sharedSuh
  refine ⟨?_, ?_, ?_, fun h => by simp at h, fun last hlast => ?_⟩
  · rw [hrest]
    exact hloaded
  · rw [hrest]
    exact hcount
  · rw [hrest]
    simp
  · rw [List.getLast?_concat, Option.mem_some_iff] at hlast
    subst hlast
    refine ⟨htier, ?_⟩
    rw [hrest]
    refine ⟨hshared, rfl, rfl, rfl, ?_, rfl⟩
    change decide (8 < image.capability.1 ∨
      (image.capability.1 = 8 ∧ 0 ≤ image.capability.2)) = true ↔ _
    rw [decide_eq_true_iff, Prod.Lex.le_iff]
    exact or_congr Iff.rfl (and_congr eq_comm Iff.rfl)

/-- The first load sets the tier and logs its line. -/
theorem resolution_first (env : Env) (image : Image) (sharedSuh : Bool) :
    let r := LoadDiag.start.resolution env image sharedSuh (env.resolved sharedSuh)
    r.diag.Stands env image [sharedSuh] ∧ r.log = [firstLine env (env.resolved sharedSuh).1] :=
  ⟨loaded_stands (stands_start env image) rfl rfl, rfl⟩

/-- A later load logs a line only where the tier changes. -/
theorem resolution_later {d : LoadDiag} {before : List Bool} {last : Bool}
    (hd : d.Stands env image (before ++ [last]))
    (sharedSuh : Bool) :
    let r := d.resolution env image sharedSuh (env.resolved sharedSuh)
    r.diag.Stands env image (before ++ [last] ++ [sharedSuh]) ∧
      r.log = changeLine (some (env.resolved last).1) (env.resolved sharedSuh).1 := by
  obtain ⟨htier, -⟩ := hd.mirrors last (by rw [List.getLast?_concat]; rfl)
  have hreason : d.tierReason = (env.resolved last).2 := congrArg Prod.snd htier
  have heffective : d.effectiveTier = (env.resolved last).1 := congrArg Prod.fst htier
  have hlogged : d.tierLogged = true := by
    rw [hd.tierLogged]
    simp
  have hunresolved : (d.loaded env image sharedSuh).tierReason ≠ .unresolved :=
    hreason ▸ resolved_reason_ne env last
  have hannounce : ∀ d' : LoadDiag, d'.tierLogged = true → d'.announce = (d', []) := fun d' h' => by
    rw [LoadDiag.announce, if_pos h']
  have hloaded : (d.loaded env image sharedSuh).effectiveTier = (env.resolved last).1 := heffective
  simp only [LoadDiag.resolution, LoadDiag.mirror, if_neg hunresolved, hloaded, changeLine]
  by_cases hsame : (env.resolved last).1 = (env.resolved sharedSuh).1
  · rw [if_neg (not_not.mpr hsame), if_pos hsame]
    dsimp only
    rw [hannounce (d.loaded env image sharedSuh) hlogged]
    refine ⟨loaded_stands hd ?_ ?_, rfl⟩
    · exact htier.trans (resolved_eq_of_tier hsame)
    · change d.loaded env image sharedSuh = { d.loaded env image sharedSuh with tierLogged := true }
      rw [← hlogged]
      rfl
  · rw [if_pos hsame, if_neg hsame]
    dsimp only
    rw [hannounce { d.loaded env image sharedSuh with
      effectiveTier := (env.resolved sharedSuh).1, tierReason :=
        (env.resolved sharedSuh).2 } hlogged]
    refine ⟨loaded_stands hd rfl ?_, rfl⟩
    rw [← hlogged]
    rfl

/-- What a load writes. -/
theorem recordResolution_ok {d : LoadDiag} {layers : List Bool} (hd : d.Stands env image layers)
    {sharedSuh : Bool}
    {r : Resolution} (h : recordExl3FatResolution env image sharedSuh d = .ok r) :
    (r.tier, r.reason) = env.resolved sharedSuh ∧ r.diag.Stands env image (layers ++ [sharedSuh]) ∧
      r.log = changeLine (lastTier env layers) (env.resolved sharedSuh).1 ++
        if layers = [] then [firstLine env (env.resolved sharedSuh).1] else [] := by
  rcases resolve_eq env sharedSuh image.symbols with ⟨-, text, herror⟩ | ⟨-, hok⟩
  · rw [recordExl3FatResolution, herror] at h
    cases h
  rw [recordExl3FatResolution, hok] at h
  obtain rfl := Except.ok.inj h
  refine ⟨rfl, ?_⟩
  rcases List.eq_nil_or_concat' layers with rfl | ⟨before, last, rfl⟩
  · obtain rfl := hd.unresolved rfl
    exact resolution_first env image sharedSuh
  · rw [if_neg (by simp), List.append_nil, lastTier, List.getLast?_concat]
    exact resolution_later hd sharedSuh

/-- The log of the loads, the first line of a process at its first layer. -/
def tierLogs (env : Env) : Option FatTier → List Bool → List TierLog
  | _, [] => []
  | before, sharedSuh :: layers =>
    let tier := (env.resolved sharedSuh).1
    changeLine before tier ++ (if before = none then [firstLine env tier] else []) ++
      tierLogs env (some tier) layers

theorem lastTier_eq_none_iff (env : Env) (layers : List Bool) : lastTier env layers = none ↔
    layers = [] := by
  rw [lastTier, Option.map_eq_none_iff, List.getLast?_eq_none_iff]

theorem loadLayers_ok {layers done : List Bool} {d d' : LoadDiag} (hd : d.Stands env image done)
    {left : List (FatTier × TierReason)} {log : List TierLog}
    (h : loadLayers env image layers d = .ok (left, d', log)) :
    left = layers.map env.resolved ∧ d'.Stands env image (done ++ layers) ∧
      log = tierLogs env (lastTier env done) layers := by
  induction layers generalizing d done left log with
  | nil =>
    cases h
    exact ⟨rfl, by rwa [List.append_nil], rfl⟩
  | cons sharedSuh layers ih =>
    rw [loadLayers] at h
    cases hload : recordExl3FatResolution env image sharedSuh d with
    | error text => simp [hload, bind, Except.bind] at h
    | ok r =>
      cases hrest : loadLayers env image layers r.diag with
      | error text => simp [hload, hrest, bind, Except.bind] at h
      | ok rest =>
        obtain ⟨left', d'', log'⟩ := rest
        simp only [hload, hrest, bind, Except.bind, pure, Except.pure, Except.ok.injEq,
          Prod.mk.injEq] at h
        obtain ⟨rfl, rfl, rfl⟩ := h
        obtain ⟨htier, hstands, hlog⟩ := recordResolution_ok hd hload
        obtain ⟨rfl, hstands', rfl⟩ := ih hstands hrest
        refine ⟨by rw [htier, List.map_cons], by simpa using hstands', ?_⟩
        rw [hlog, tierLogs]
        simp only [lastTier_eq_none_iff]
        rw [lastTier, lastTier, List.getLast?_concat, Option.map_some]

theorem loadLayers_error_iff {layers : List Bool} {d : LoadDiag} :
    (∃ text, loadLayers env image layers d = .error text) ↔
      ∃ sharedSuh ∈ layers, env.refused image.symbols sharedSuh := by
  induction layers generalizing d with
  | nil => simp [loadLayers]
  | cons sharedSuh layers ih =>
    rw [List.exists_mem_cons_iff, loadLayers]
    rcases resolve_eq env sharedSuh image.symbols with ⟨hrefused, text, herror⟩ | ⟨hnot, hok⟩
    · refine iff_of_true ⟨text, ?_⟩ (.inl hrefused)
      rw [recordExl3FatResolution, herror]
      rfl
    · rw [or_iff_right hnot, ← ih, recordExl3FatResolution, hok]
      simp only [Except.map, bind, Except.bind, pure, Except.pure]
      cases loadLayers env image layers
        (d.resolution env image sharedSuh (env.resolved sharedSuh)).diag <;> simp

/-- **The diagnostics of a model load**: it is refused exactly where on some layer the kernel would
run and the image lacks one of its symbols. Otherwise every layer has the tier that its signs allow,
the diagnostics mirror the last load and count the layers and those with shared signs, and the log
has the line of the first load and a line for every change of the tier. -/
theorem loads_diag (env : Env) (image : Image) (layers : List Bool) :
    ((∃ text, loadLayers env image layers .start = .error text) ↔
        ∃ sharedSuh ∈ layers, env.refused image.symbols sharedSuh) ∧
      ∀ left d log, loadLayers env image layers .start = .ok (left, d, log) →
        left = layers.map env.resolved ∧ d.Stands env image layers ∧
          log = tierLogs env none layers :=
  ⟨loadLayers_error_iff, fun _ _ _ h => loadLayers_ok (stands_start env image) h⟩

/-! ### A call after the load -/

section Calls

variable {S P X I V W L : Type*} [AddCommMonoid V] [CommMagma I] [SMul W V]

/-- `exl3_fat_symbols()` of an extension with the fused kernel. -/
def symbolsOf (ext : Ext S P X I V W L) : FatSymbols :=
  ⟨true, ext.exl3FatGemm.isSome, ext.exl3FatGemmScatter.isSome⟩

/-- The reason that a call of a tier records. -/
def runReason : FatTier → TierReason → FatReason
  | .kernel, _ => .kernelOk
  | .batched, _ => .batchedOk
  | .sorted, .sharedSuhAbsent => .degradedSharedSuh
  | .sorted, _ => .sortedOk
  | _, _ => .legacyDefault

/-- The flags of a call decide as the load has resolved. -/
theorem fatFlags_resolved (env : Env) (layer : Layer S P) :
    (fatFlags env layer).useBatchedFat = decide ((env.resolved layer.sharedW13Suh).1 = .kernel ∨
        (env.resolved layer.sharedW13Suh).1 = .batched) ∧
      (fatFlags env layer).useFatKernel = decide ((env.resolved layer.sharedW13Suh).1 = .kernel) ∧
      (fatFlags env layer).useSortedFat = decide ((env.resolved layer.sharedW13Suh).1 ≠ .legacy) ∧
      ((env.resolved layer.sharedW13Suh).1 = .sorted →
        (fatFlags env layer).wantBatchedFat = decide
          ((env.resolved layer.sharedW13Suh).2 = .sharedSuhAbsent)) := by
  rcases Bool.eq_false_or_eq_true env.fatKernelEnabled with hkernel | hkernel <;>
  rcases Bool.eq_false_or_eq_true env.batchedFatFallbackEnabled with hbatched | hbatched <;>
  rcases Bool.eq_false_or_eq_true env.sortedFatFallbackEnabled with hsorted | hsorted <;>
  rcases Bool.eq_false_or_eq_true layer.sharedW13Suh with hshared | hshared <;>
  simp [fatFlags, Env.resolved, Env.configuredFatTier, hkernel, hbatched, hsorted, hshared]

theorem resolved_mem_fatTiers (env : Env) (sharedSuh : Bool) :
    (env.resolved sharedSuh).1 ∈ fatTiers := by
  unfold Env.resolved Env.configuredFatTier
  dsimp only
  split_ifs <;> simp_all [fatTiers]

/-- The kernel goes by the pipeline, and the extension has not both its symbols. -/
def Unpiped (env : Env) (ext : Ext S P X I V W L) : Prop :=
  env.fatPipelineEnabled = true ∧
    ¬(ext.exl3FatGemmPipe.isSome = true ∧ ext.exl3FatGemmPipeScatter.isSome = true)

/-- What the fallback of a tier raises, of the experts in `inners` with the rows in `counts`: that a
symbol of the pipeline is missing; else that the row count of the scratch is no number; else, of the
kernel, that it is not compiled for the bits of some expert that does not fit. -/
inductive Raises (env : Env) (ext : Ext S P X I V W L) (inners : List (Pack S P))
    (counts : List ℕ) (cap : ℕ) :
    FatTier → Err → Prop where
  | pipeMissing : Unpiped env ext → Raises env ext inners counts cap .kernel .pipeMissing
  | scratchRows {tier : FatTier} : tier = .batched ∨ tier = .kernel ∧ ¬Unpiped env ext →
      env.scratch.configured = none → Raises env ext inners counts cap tier .scratchRows
  | fatGemmBits : ¬Unpiped env ext → env.scratch.configured ≠ none → Unsupported inners counts cap →
      Raises env ext inners counts cap .kernel .fatGemmBits

section Fallback

variable {T K : ℕ} {ext : Ext S P X I V W L} {x2d : Fin T → X} {ids : Fin T → Fin K → ℤ}
  {weights : Fin T → Fin K → W} {layer : Layer S P} {expertMap : Option ExpertMap} {limit : L}
  {r : Routing T W} {cap : ℕ}

/-- The labels of a call. -/
def FatState.labels (s : FatState) : FatTier × FatReason := (s.lastFatFallback, s.lastFatReason)

theorem labels_ran (useKernel : Bool) (n : ℕ) (s : FatState) :
    (s.ran useKernel n).labels = s.labels := rfl

theorem labels_recordFatTier (tier : FatTier) (reason : FatReason) (s : FatState) :
    (s.recordFatTier tier reason).labels = (tier, reason) := rfl

/-- Without its two symbols the pipeline raises before any expert. -/
theorem applyExl3BatchedFat_unpiped {xh : Fin T → X} {tokens : List (Fin T)} {scale : List W}
    {counts : List ℕ}
    {inners : List (Pack S P)} {out : Fin T → V} {s : FatState}
    (hpipeline : env.fatPipelineEnabled = true)
    (hmissing : ¬(ext.exl3FatGemmPipe.isSome = true ∧ ext.exl3FatGemmPipeScatter.isSome = true)) :
    applyExl3BatchedFat env ext xh tokens scale counts inners limit cap out true s =
      .error (.pipeMissing, s) := by
  rw [← Bool.and_eq_true_iff, Bool.not_eq_true] at hmissing
  simp [applyExl3BatchedFat, hpipeline, hmissing]

theorem labels_batchedFat {xh : Fin T → X} {tokens : List (Fin T)} {scale : List W}
    {counts : List ℕ} {inners : List (Pack S P)} {out : Fin T → V} {useKernel : Bool}
    {s : FatState} {st : (Fin T → V) × FatState}
    (hrun : applyExl3BatchedFat env ext xh tokens scale counts inners limit cap out useKernel s
      = .ok st) : st.2.labels = s.labels := by
  rw [applyExl3BatchedFat_ran hrun, labels_ran]

theorem labels_sortedFat {xh : Fin T → X} {tokens : List (Fin T)} {scale : List W}
    {counts : List ℕ} {inners : List (Pack S P)} {out : Fin T → V} {s : FatState}
    {st : (Fin T → V) × FatState}
    (hrun : applyExl3SortedFat ext xh tokens scale counts inners limit cap out s = .ok st) :
    st.2.labels = s.labels := by
  rw [applyExl3SortedFat_ran hrun, labels_ran]

/-- Where some expert does not fit, the loop of the batched and of the kernel tier raises what its
tier raises, and otherwise keeps the labels. -/
theorem applyExl3BatchedFat_resolved {tier : FatTier} (htier : tier = .kernel ∨ tier = .batched)
    {inners : List (Pack S P)} {counts : List ℕ} (hlen : counts.length ≤ inners.length)
    (hstock : tier = .kernel → ext.exl3FatGemm.isSome = true ∧ ext.exl3FatGemmScatter.isSome = true)
    (hfat : ∃ e < counts.length, cap < counts.getD e 0) (xh : Fin T → X) (tokens : List (Fin T))
    (scale : List W) (out : Fin T → V) (s : FatState) :
    let run := applyExl3BatchedFat env ext xh tokens scale counts inners limit cap out
      (decide (tier = .kernel)) s
    (∀ err, Raises env ext inners counts cap tier err → ∃ s', run = .error (err, s')) ∧
      ((∀ err, ¬Raises env ext inners counts cap tier err) →
        ∃ out' s', run = .ok (out', s') ∧ s'.labels = s.labels) := by
  by_cases hun : tier = .kernel ∧ Unpiped env ext
  · obtain ⟨rfl, hun⟩ := hun
    refine ⟨fun err herr => ?_, fun h => absurd (.pipeMissing hun) (h .pipeMissing)⟩
    have herr : err = .pipeMissing := by
      cases herr with
      | pipeMissing _ => rfl
      | scratchRows h _ => exact absurd hun (h.resolve_left (by decide)).2
      | fatGemmBits h _ _ => exact absurd hun h
    exact ⟨_, herr ▸ applyExl3BatchedFat_unpiped hun.1 hun.2⟩
  · have hsymbols : decide (tier = .kernel) = true → ext.HasFatKernel env := by
      intro hkernel
      have hkernel := of_decide_eq_true hkernel
      exact
        { pipe := fun hp => by_contra fun hmissing => hun ⟨hkernel, hp, hmissing⟩
          stock := fun _ => hstock hkernel }
    obtain ⟨hscratch, hreturns, hbits⟩ :=
      applyExl3BatchedFat_cases hsymbols hlen xh tokens scale cap out s
    refine ⟨fun err herr => ?_, fun h => ?_⟩
    · cases herr with
      | pipeMissing h => exact absurd ⟨rfl, h⟩ hun
      | scratchRows _ h => exact hscratch h hfat
      | fatGemmBits _ hrows h => exact hbits hrows (by decide) h
    · have hrows : env.scratch.configured ≠ none := by
        refine fun h' => h _ (.scratchRows ?_ h')
        exact htier.symm.imp_right fun hkernel => ⟨hkernel, fun h => hun ⟨hkernel, h⟩⟩
      have hsupported : decide (tier = .kernel) = true → ¬Unsupported inners counts cap := by
        intro hkernel hbad
        obtain rfl := of_decide_eq_true hkernel
        exact h _ (.fatGemmBits (fun h => hun ⟨rfl, h⟩) hrows hbad)
      obtain ⟨⟨out', s'⟩, hrun⟩ := hreturns hrows hsupported
      exact ⟨out', s', hrun, labels_batchedFat hrun⟩

/-- The fallback takes the tier that the load has resolved. -/
theorem applyFatFallback_resolved (x2d : Fin T → X) (ids : Fin T → Fin K → ℤ)
    (weights : Fin T → Fin K → W)
    (expertMap : Option ExpertMap) (limit : L) (cap : ℕ) {tier : FatTier} {reason : TierReason}
    (hr : env.resolved layer.sharedW13Suh = (tier, reason)) {countsHost : Option (List ℕ)}
    {counts : List ℕ} (hcounts : r.expertCount.take layer.inners.length = counts)
    (hhost : (fatFlags env layer).useSortedFat = true → countsHost = some counts)
    (hstock : tier = .kernel → ext.exl3FatGemm.isSome = true ∧ ext.exl3FatGemmScatter.isSome = true)
    (hfat : ∃ e < counts.length, cap < counts.getD e 0) (out : Fin T → V) (s : FatState) :
    let run := applyFatFallback env ext x2d ids weights layer expertMap limit cap r countsHost out s
    (∀ err, Raises env ext layer.inners counts cap tier err → ∃ s', run = .error (err, s')) ∧
      ((∀ err, ¬Raises env ext layer.inners counts cap tier err) →
        ∃ out' s', run = .ok (out', s') ∧ s'.labels = (tier, runReason tier reason)) := by
  obtain ⟨hbatched, hkernel, hsorted, hwant⟩ := fatFlags_resolved env layer
  have hmem := resolved_mem_fatTiers env layer.sharedW13Suh
  have hlen : counts.length ≤ layer.inners.length := hcounts ▸ List.length_take_le _ _
  rw [hr] at hbatched hkernel hsorted hwant hmem
  simp only [fatTiers, Finset.mem_insert, Finset.mem_singleton] at hmem
  dsimp only [applyFatFallback]
  rcases hmem with rfl | rfl | rfl | rfl
  · rw [hhost (by simp [hsorted]), hbatched, hkernel, if_pos (by simp)]
    exact applyExl3BatchedFat_resolved (.inl rfl) hlen hstock hfat x2d r.tokenSorted r.weightSorted
      out (s.recordFatTier .kernel .kernelOk)
  · rw [hhost (by simp [hsorted]), hbatched, hkernel, if_pos (by simp)]
    exact applyExl3BatchedFat_resolved (.inr rfl) hlen hstock hfat x2d r.tokenSorted r.weightSorted
      out (s.recordFatTier .batched .batchedOk)
  · rw [hhost (by simp [hsorted]), hbatched, hsorted, if_neg (by simp), if_pos (by simp), hwant rfl]
    refine ⟨fun err herr => ?_, fun _ => ?_⟩
    · cases herr with
      | scratchRows h _ => exact absurd h (by simp)
    have hreturns : ∃ st, applyExl3SortedFat ext x2d r.tokenSorted r.weightSorted _ layer.inners
      limit cap out
        (s.recordFatTier .sorted (if decide (reason = .sharedSuhAbsent) = true then
          .degradedSharedSuh else .sortedOk))
          = .ok st := applyExl3SortedFat_returns hlen _ _ _ _ _ _
    obtain ⟨⟨out', s'⟩, hrun⟩ := hreturns
    refine ⟨out', s', hrun, (labels_sortedFat hrun).trans ?_⟩
    rw [labels_recordFatTier]
    cases reason <;> rfl
  · rw [hbatched, hsorted, if_neg (by simp), if_neg (by simp)]
    refine ⟨fun err herr => ?_, fun _ => ?_⟩
    · cases herr with
      | scratchRows h _ => exact absurd h (by simp)
    split_ifs
    · exact ⟨_, _, rfl, rfl⟩
    · exact ⟨_, _, rfl, rfl⟩

theorem maxRowsOf_eq_some (cap : ℕ) {countsHost : Option (List ℕ)} {counts : List ℕ}
    (hhost : ∀ c ∈ countsHost, c = counts) (hcounts : counts ≠ []) :
    ∃ m, maxRowsOf countsHost counts = some m ∧ (cap < m ↔ 0 < counts.countP (cap < ·)) := by
  have hmax : ∃ m, maxRowsOf countsHost counts = some m ∧ (m = 0 ∨ m ∈ counts) := by
    cases countsHost with
    | none =>
      obtain ⟨m, hm⟩ := Option.ne_none_iff_exists'.mp (mt List.max?_eq_none_iff.mp hcounts)
      exact ⟨m, hm, .inr (List.max?_eq_some_iff.mp hm).1⟩
    | some host =>
      rw [hhost host rfl]
      have hm : (0 :: counts).max? = some (counts.foldl max 0) := List.max?_cons'
      exact ⟨_, rfl, List.mem_cons.mp (List.max?_eq_some_iff.mp hm).1⟩
  obtain ⟨m, hm, hmem⟩ := hmax
  refine ⟨m, hm, ?_⟩
  rw [List.countP_pos_iff]
  constructor
  · intro hlt
    rcases hmem with rfl | hmem
    · omega
    · exact ⟨m, hmem, decide_eq_true hlt⟩
  · rintro ⟨c, hc, hlt⟩
    exact (of_decide_eq_true hlt).trans_le (le_maxRowsOf hhost hm c hc)

/-- The labels of a call with more tokens than temporary rows, of whose experts `fat` do not fit. -/
def prefillLabels (env : Env) (resolved : FatTier × TierReason) (fat : ℕ) : FatTier × FatReason :=
  if fat = 0 then (.none, .noFatExperts)
  else if env.fusedMoeRowTileEnabled then (.rowTile, .rowTilePreemptsFat)
  else (resolved.1, runReason resolved.1 resolved.2)

theorem applyPrefill_resolved (x2d : Fin T → X) (ids : Fin T → Fin K → ℤ)
    (weights : Fin T → Fin K → W)
    (expertMap : Option ExpertMap) (limit : L) (cap : ℕ) {resolved : FatTier × TierReason}
    (hr : env.resolved layer.sharedW13Suh = resolved) (ptrs : List (Pack S P)) {counts : List ℕ}
    (hcounts : r.expertCount.take layer.inners.length = counts) (hnil : counts ≠ [])
    (hstock : resolved.1 = .kernel → ext.exl3FatGemm.isSome = true ∧
      ext.exl3FatGemmScatter.isSome = true)
    {s : FatState} (hs : s.labels = (.none, .noFatExperts)) :
    let run := applyPrefill env ext x2d ids weights layer ptrs expertMap limit cap r s
    let fallsBack := 0 < counts.countP (cap < ·) ∧ env.fusedMoeRowTileEnabled = false
    (∀ err, fallsBack → Raises env ext layer.inners counts cap resolved.1 err →
      ∃ s', run = .error (err, s')) ∧
      ((fallsBack → ∀ err, ¬Raises env ext layer.inners counts cap resolved.1 err) →
        ∃ out s', run = .ok (out, s') ∧ s'.labels = prefillLabels env resolved
          (counts.countP (cap < ·))) := by
  have hhost : (fatFlags env layer).useSortedFat = true →
      (if ((fatFlags env layer).useBatchedFat && !(fatFlags env layer).useRowTiles)
          || (fatFlags env layer).useSortedFat then some counts else none) =
            some counts := fun h => by simp [h]
  have hcounted : ∀ c ∈
    (if ((fatFlags env layer).useBatchedFat && !(fatFlags env layer).useRowTiles)
      || (fatFlags env layer).useSortedFat then some counts else none), c = counts := by simp
  obtain ⟨m, hm, hcap⟩ := maxRowsOf_eq_some cap hcounted hnil
  have hflag : (fatFlags env layer).useRowTiles = env.fusedMoeRowTileEnabled := rfl
  simp only [applyPrefill, hcounts, hm]
  by_cases hfit : m ≤ cap
  · have hnone : counts.countP (cap < ·) = 0 := by omega
    rw [if_pos hfit]
    refine ⟨fun _ h => absurd h.1 (by omega), fun _ => ⟨_, _, rfl, ?_⟩⟩
    rw [prefillLabels, if_pos hnone]
    exact hs
  · have hsome : 0 < counts.countP (cap < ·) := by omega
    rw [if_neg hfit]
    cases htile : env.fusedMoeRowTileEnabled with
    | true =>
      rw [if_pos (hflag.trans htile)]
      refine ⟨fun _ h => absurd h.2 (by simp), fun _ => ⟨_, _, rfl, ?_⟩⟩
      rw [prefillLabels, if_neg hsome.ne', if_pos htile]
      rfl
    | false =>
      have hlabels : prefillLabels env resolved (counts.countP (cap < ·))
          = (resolved.1, runReason resolved.1 resolved.2) := by
        rw [prefillLabels, if_neg hsome.ne', if_neg (by simp [htile])]
      have hfat : ∃ e < counts.length, cap < counts.getD e 0 := by
        obtain ⟨c, hc, hlt⟩ := List.countP_pos_iff.mp hsome
        obtain ⟨e, he, rfl⟩ := List.getElem_of_mem hc
        exact ⟨e, he, by rw [List.getD_eq_getElem _ _ he]; exact of_decide_eq_true hlt⟩
      have hfallback :=
        applyFatFallback_resolved x2d ids weights expertMap limit cap hr hcounts hhost hstock hfat
      rw [if_neg (by simp [hflag, htile]), hlabels]
      exact ⟨fun err _ => (hfallback _ _).1 err, fun h => (hfallback _ _).2 (h ⟨hsome, rfl⟩)⟩

end Fallback

/-- The labels of a call. -/
def FusedMoeCall.labels (c : FusedMoeCall S P X I V W L) (resolved : FatTier × TierReason) :
    FatTier × FatReason :=
  if c.T ≤ c.cap then (.none, .noFatExperts) else prefillLabels c.env resolved c.fatExperts

/-- The call comes to a fallback, which raises. -/
def FusedMoeCall.Raises (c : FusedMoeCall S P X I V W L) (tier : FatTier) (err : Err) : Prop :=
  c.cap < c.T ∧ 0 < c.fatExperts ∧ c.env.fusedMoeRowTileEnabled = false ∧
    Exl3.Raises c.env c.ext c.layer.inners ((List.range c.layer.inners.length).map c.rows)
      c.cap tier err

theorem resolved_kernel_iff (env : Env) (sharedSuh : Bool) :
    (env.resolved sharedSuh).1 = .kernel ↔ env.fatKernelEnabled = true ∧ sharedSuh = true := by
  rw [← configuredFatTier_eq_kernel_iff]
  unfold Env.resolved
  cases env.configuredFatTier <;> cases sharedSuh <;> simp

theorem mapTopkToLocal_pinned (flat : List ℤ) (nLocal : ℕ) {expertMap : Option ExpertMap}
    (hpinned : ∀ map ∈ expertMap, map.pinned = true) :
    ∃ localIds, mapTopkToLocal flat nLocal expertMap = .ok localIds := by
  cases expertMap with
  | none => exact ⟨_, rfl⟩
  | some map =>
    rw [mapTopkToLocal, if_pos (hpinned map rfl)]
    exact ⟨_, rfl⟩

/-- **A call goes the way that its load has resolved.** Where the load of a layer was not refused, a
call of its fused apply with the expert map on the device raises exactly where it comes to a
fallback that raises, and that error; otherwise it returns, and is labelled by the tier that the
load resolved, if some expert has more rows than there are temporary ones and no row tiles are asked
for. -/
theorem apply_of_resolved (c : FusedMoeCall S P X I V W L) (s : FatState)
    {resolved : FatTier × TierReason}
    (hload : resolveExl3FatTier c.env c.layer.sharedW13Suh (symbolsOf c.ext) = .ok resolved)
    (hinners : c.layer.inners ≠ []) (hptrs : c.layer.ptrs.isSome)
    (htemps : c.layer.fusedTemps.isSome)
    (hpinned : ∀ map ∈ c.expertMap, map.pinned = true) :
    (∀ err, c.Raises resolved.1 err → ∃ s', c.apply s = .error (err, s')) ∧
      ((∀ err, ¬c.Raises resolved.1 err) →
        ∃ out s', c.apply s = .ok (out, s') ∧ s'.labels = c.labels resolved) := by
  obtain ⟨hresolved, hnot⟩ := resolve_ok hload
  have hstock : resolved.1 = .kernel → c.ext.exl3FatGemm.isSome = true ∧
      c.ext.exl3FatGemmScatter.isSome = true :=
    fun hkernel => by_contra fun hmissing => by
      obtain ⟨henabled, hshared⟩ := (resolved_kernel_iff _ _).mp (hresolved ▸ hkernel)
      exact hnot ⟨henabled, hshared, hmissing⟩
  obtain ⟨ptrs, hptrs⟩ := Option.isSome_iff_exists.mp hptrs
  obtain ⟨cap, htemps⟩ := Option.isSome_iff_exists.mp htemps
  obtain ⟨localIds, hlocal⟩ := mapTopkToLocal_pinned (reshape c.ids) c.layer.inners.length hpinned
  have hcap : c.cap = cap := by rw [FusedMoeCall.cap, htemps, Option.getD_some]
  simp only [FusedMoeCall.apply, applyExl3FusedMoe, hptrs, htemps, hlocal, FusedMoeCall.Raises,
    FusedMoeCall.labels, hcap]
  by_cases hT : c.T ≤ cap
  · rw [if_pos hT, if_pos hT]
    exact ⟨fun _ h => absurd h.1 (not_lt.mpr hT), fun _ => ⟨_, _, rfl, rfl⟩⟩
  · have hcounts : (sortRouting c.argsort c.layer.inners.length localIds c.weights).expertCount.take
        c.layer.inners.length = (List.range c.layer.inners.length).map c.rows := by
      rw [mapTopkToLocal_ok hlocal, take_expertCount]
      rfl
    have hnil : (List.range c.layer.inners.length).map c.rows ≠ [] := by
      simpa using hinners
    have hfat : ((List.range c.layer.inners.length).map c.rows).countP (cap < ·) =
        c.fatExperts := by
      rw [List.countP_map, FusedMoeCall.fatExperts, hcap]
      rfl
    rw [if_neg hT, if_neg hT]
    have hentered : s.entered.labels = (.none, .noFatExperts) := rfl
    have hprefill :=
      applyPrefill_resolved c.x2d c.ids c.weights c.expertMap c.limit cap hresolved.symm ptrs
      hcounts hnil hstock hentered
    rw [hfat] at hprefill
    exact ⟨fun err h => hprefill.1 err ⟨h.2.1, h.2.2.1⟩ h.2.2.2,
      fun h => hprefill.2 fun hfalls err herr => h err ⟨not_le.mp hT, hfalls.1, hfalls.2, herr⟩⟩

end Calls

/-- The call of the two tokens, with the pipeline. -/
noncomputable def pipelinedCall : FusedMoeCall (Fin 128 → ℤ) DensePacked Row Row Row ℝ ℝ :=
  { sharedExpertCall with env := { kernelEnv with fatPipeline := some ['1'] } }

/-- The call of the two tokens, with a row count that is no number. -/
noncomputable def unscratchedCall : FusedMoeCall (Fin 128 → ℤ) DensePacked Row Row Row ℝ ℝ :=
  { sharedExpertCall with env := { kernelEnv with scratch := ⟨some ['2', 'k'], none⟩ } }

theorem sharedExpertCall_fatExperts : sharedExpertCall.fatExperts = 1 := by decide +kernel

theorem pipelinedCall_raises : pipelinedCall.Raises .kernel .pipeMissing := by
  have hfat : pipelinedCall.fatExperts = 1 := sharedExpertCall_fatExperts
  refine ⟨?_, by omega, by decide, .pipeMissing ⟨by decide, ?_⟩⟩
  · change 1 < 2
    decide
  · rintro ⟨h, -⟩
    cases h

theorem unscratchedCall_raises : unscratchedCall.Raises .kernel .scratchRows := by
  have hfat : unscratchedCall.fatExperts = 1 := sharedExpertCall_fatExperts
  refine ⟨?_, by omega, by decide, .scratchRows (.inr ⟨rfl, ?_⟩) (by decide)⟩
  · change 1 < 2
    decide
  · rintro ⟨h, -⟩
    exact absurd h (by decide)

theorem sharedExpertCall_not_raises (err : Err) : ¬sharedExpertCall.Raises .kernel err := by
  rintro ⟨-, -, -, h⟩
  cases h with
  | pipeMissing h => exact absurd h.1 (by decide)
  | scratchRows _ h => exact absurd h (by decide)
  | fatGemmBits _ _ h =>
    obtain ⟨e, he, -, hpack⟩ := h
    have hlt : e < sharedExpertCall.layer.inners.length := by simpa using he
    refine hpack _ (List.getElem?_eq_getElem hlt) ?_
    have hbits : ∀ pack ∈ sharedExpertCall.layer.inners, pack.HasKernelBits := by
      simp [sharedExpertCall, loadedExperts, twoExperts, Layer.load, diagonalPack,
        Pack.HasKernelBits,
        kernelBits]
    exact hbits _ (List.getElem_mem hlt)

/-- The two tokens share the first expert: the kernel runs it, unless it is to be pipelined, or has
no row count for its scratch. -/
theorem apply_of_resolved_sharedExpert :
    (∃ out s', sharedExpertCall.apply FatState.zero = .ok (out, s') ∧
      s'.labels = (.kernel, .kernelOk)) ∧
      (∃ s', pipelinedCall.apply FatState.zero = .error (.pipeMissing, s')) ∧
      ∃ s', unscratchedCall.apply FatState.zero = .error (.scratchRows, s') := by
  have hload : resolveExl3FatTier kernelEnv true (symbolsOf denseExt) =
      .ok (.kernel, .ok .kernel) := by
    rfl
  have hinners : loadedExperts.inners ≠ [] := by simp [loadedExperts, twoExperts, Layer.load]
  have hpinned : ∀ map ∈ (none : Option ExpertMap), map.pinned = true := by simp
  refine ⟨?_, (apply_of_resolved pipelinedCall FatState.zero hload hinners rfl rfl hpinned).1 _
    pipelinedCall_raises,
      (apply_of_resolved unscratchedCall FatState.zero hload hinners rfl rfl hpinned).1 _
    unscratchedCall_raises⟩
  obtain ⟨out, s', hrun, hlabels⟩ :=
    (apply_of_resolved sharedExpertCall FatState.zero hload hinners rfl rfl
    hpinned).2 sharedExpertCall_not_raises
  refine ⟨out, s', hrun, hlabels.trans ?_⟩
  have hT : ¬sharedExpertCall.T ≤ sharedExpertCall.cap := by
    change ¬2 ≤ 1
    decide
  rw [FusedMoeCall.labels, if_neg hT, sharedExpertCall_fatExperts]
  rfl

end Glm53Serve.Exl3
