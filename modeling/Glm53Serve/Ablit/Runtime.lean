import Glm53Serve.Ablit.Layers
import Glm53Serve.AdaptiveK.Policy
import Glm53Serve.Torch.Columns

/-!
# The transplant at load time

`overlay/ablit_runtime.py` is called at the end of `load_weights`. With `ABLIT=1` it
replaces the weights of the `o_proj` modules of the layers named by the donor's, each rank
its own slice of columns.

## The model

A model is the modules that `named_modules` lists, by name and identity; the state is the
two-dimensional weights of the modules. The elements are BF16, as the source says of
`o_proj` and checks of the donors, so `copy_` writes what it is given. The transplant
directory is the one that the fetch fills. Of the manifest the model keeps what is read of
it (`Manifest`). The direction method is a parameter; the statistics of the report, which
only the log shows, and the memory it logs are left out. A raise stops the engine, so the
weights that it leaves are left out too.

## What is proved

* `walkFrom_spec` — the candidates are the `o_proj` modules, each once.
* `transplantMeta_ok_iff` — the entries that the hook goes on with are sound.
* `streamedDonors_ok_iff` — the donors that it reads are the verified ones.
-/

namespace Glm53Serve.Ablit.Runtime

open Py Torch

/-! ### Data -/

/-- An element of a BF16 tensor: its two bytes. -/
abbrev Bf16 := UInt8 × UInt8

/-- The identity of a module. -/
abbrev ModuleId := ℕ

/-- The two-dimensional `.weight` of each module; `none` where there is none. -/
abbrev Weights := ModuleId → Option (Mat Bf16)

/-- What `named_modules()` lists. -/
abbrev Named := List (Text × ModuleId)

/-- `model.language_model`, and its `.model`. -/
structure LanguageModel where
  named : Named
  model : Option Named

/-- A model. -/
structure Model where
  named : Named
  languageModel : Option LanguageModel

/-- What is read of an entry of the manifest; `none` is an exception, or a value that is not a
text. -/
structure Info where
  /-- `int(info["nbytes"])`. -/
  nbytes : Option ℤ
  dtype : Option Text
  /-- `info.get("sha256")`; `none` also where it is false. -/
  sha256 : Option Text
  shape : Option (List ℤ)
  deriving DecidableEq

/-- What is read of `MANIFEST.json`; a table is empty where it is absent or false. -/
structure Manifest where
  layers : List (Text × Info)
  tensors : List (Text × Info)

/-- The report. -/
structure Report where
  editedLayers : List ℤ
  /-- The names skipped for `include_mtp=0`. -/
  skipped : List Text
  mtpEdited : Bool

/-- What the hook raises. -/
inductive Error where
  /-- An `AblitError` of `parse_layers`. -/
  | layers (e : LayersError)
  /-- "ABLIT_METHOD=... but ablit/transplant/ is missing or empty". -/
  | noTransplant
  /-- "ABLIT_METHOD=... not one of auto | transplant | proj". -/
  | badMethod
  /-- "ABLIT_METHOD=transplant but ... is missing". -/
  | noManifest
  /-- "transplant manifest lists L{L} but ... is missing". -/
  | missing (L : ℤ)
  /-- "transplant L{L}: expected ... bytes, got ...". -/
  | size (L : ℤ)
  /-- "transplant L{L}: unsupported dtype ...". -/
  | dtype (L : ℤ)
  /-- "transplant manifest has no sha256 for L{L}". -/
  | noSha256 (L : ℤ)
  /-- "no transplant tensors under ... cover ABLIT_LAYERS". -/
  | noCover
  /-- "transplant L{L}: short read". -/
  | shortRead (L : ℤ)
  /-- "transplant L{L}: sha256 mismatch". -/
  | sha256 (L : ℤ)
  /-- "ABLIT_METHOD=transplant has no donor tensor for layer {idx}". -/
  | noDonor (L : ℤ)
  /-- "ablit transplant: {name} has no 2-D .weight". -/
  | noWeight (name : Text)
  /-- "ablit transplant: {name} shape ... does not match donor ...". -/
  | shape (name : Text)
  /-- "ABLIT=1 transplant matched no o_proj". -/
  | matchedNothing
  /-- An exception of another kind. -/
  | other
  deriving DecidableEq

/-- The environment variables. -/
structure Knobs where
  ABLIT : Option Text
  ABLIT_DIR : Option Text
  ABLIT_METHOD : Option Text
  ABLIT_LAYERS : Option Text
  ABLIT_INCLUDE_MTP : Option Text

/-- What the hook finds. -/
structure Env where
  knobs : Knobs
  /-- `_tp_world()`. -/
  world : ℕ
  /-- `_tp_rank()`. -/
  rank : ℕ
  /-- The directory `transplant` in an artifact directory. -/
  dir : Text → Dir
  /-- What is read of a manifest; `none` is an exception. -/
  loads : Text → Option Manifest
  /-- `hashlib.sha256(buf).hexdigest()`. -/
  hexdigest : Bytes → Text
  /-- The rest of `maybe_apply` for the direction method. -/
  proj : List ℤ → Bool → Model → Weights → Except Error (Weights × Report)

/-! ### Settings -/

/-- `DEFAULT_ABLIT_DIR`. -/
def DEFAULT_ABLIT_DIR : Text :=
  ['/', 'o', 'p', 't', '/', 'g', 'l', 'm', '5', '3', '/', 'a', 'b', 'l', 'i', 't']

/-- `DEFAULT_LAYERS`. -/
def DEFAULT_LAYERS : Text := ['1', '5', '-', '4', '3', ',', '4', '5']

/-- `env_flag(name, default)`, of the value. -/
def envFlag (val : Option Text) (default : Bool) : Bool :=
  match val with
  | none | some [] => default
  | some t => AdaptiveK.flagOn (AdaptiveK.word t)

/-- `os.environ.get(name) or default`, of the value. -/
def orDefault (val : Option Text) (default : Text) : Text :=
  match val with
  | none | some [] => default
  | some t => t

namespace Knobs

variable (k : Knobs)

/-- `layers_spec`. -/
def layersSpec : Text := orDefault k.ABLIT_LAYERS DEFAULT_LAYERS

/-- `include_mtp`. -/
def includeMtp : Bool := envFlag k.ABLIT_INCLUDE_MTP true

/-- `method`. -/
def method : Text := AdaptiveK.word (orDefault k.ABLIT_METHOD ['a', 'u', 't', 'o'])

/-- `method in ("auto", "transplant")`. -/
def transplants : Bool :=
  [['a', 'u', 't', 'o'], ['t', 'r', 'a', 'n', 's', 'p', 'l', 'a', 'n', 't']].contains k.method

end Knobs

/-- The transplant directory of the settings. -/
def Env.tdir (env : Env) : Dir := env.dir (orDefault env.knobs.ABLIT_DIR DEFAULT_ABLIT_DIR)

/-! ### The modules -/

/-- The end `o_proj$` of a name: `$` also matches before a newline at the end. -/
def isOProj (c : Text) : Bool :=
  c = ['o', '_', 'p', 'r', 'o', 'j'] || c = ['o', '_', 'p', 'r', 'o', 'j', '\n']

/-- `\d+`. -/
def isDigits (d : Text) : Bool := d ≠ [] && d.all fun c => (digit c).isSome

/-- `self_attn`. -/
def selfAttn : Text := ['s', 'e', 'l', 'f', '_', 'a', 't', 't', 'n']

/-- The group of `_LAYER_O_PROJ_RE.search(name)`. -/
def layerOProj (name : Text) : Option Text :=
  match (name.splitOn '.').reverse with
  | o :: attn :: d :: layers :: _ =>
    if isOProj o && attn = selfAttn && isDigits d && layers = ['l', 'a', 'y', 'e', 'r', 's'] then
      some d
    else none
  | _ => none

/-- The group of `_MTP_O_PROJ_RE.search(name)`. -/
def mtpOProj (name : Text) : Option Text :=
  match (name.splitOn '.').reverse with
  | o :: attn :: block :: d :: layers :: _ =>
    if isOProj o && attn = selfAttn && block = ['m', 't', 'p', '_', 'b', 'l', 'o', 'c', 'k'] &&
      isDigits d && layers = ['l', 'a', 'y', 'e', 'r', 's'] then some d
    else none
  | _ => none

/-- The group of the pattern that matches. -/
def oProj (name : Text) : Option Text := layerOProj name <|> mtpOProj name

/-- `is_mtp`. -/
def isMtp (name : Text) : Bool := (mtpOProj name).isSome

/-- The name is that of the `o_proj` of a layer. -/
def IsOProj (name : Text) (idx : ℤ) : Prop := (oProj name).bind Py.int = some idx

/-- A candidate: `(name, layer_idx, module)`. -/
structure Candidate where
  name : Text
  idx : ℤ
  mod : ModuleId

/-- The loop of `walk_o_proj`, with the modules seen. -/
def walkFrom (seen : List ModuleId) : Named → Except Error (List Candidate)
  | [] => .ok []
  | (name, m) :: named =>
    if m ∈ seen then walkFrom seen named
    else
      match oProj name with
      | none => walkFrom seen named
      | some d =>
        match Py.int d with
        | none => .error .other
        | some idx => (walkFrom (m :: seen) named).map (⟨name, idx, m⟩ :: ·)

/-- `walk_o_proj(model)`. -/
def walkOProj (named : Named) : Except Error (List Candidate) := walkFrom [] named

/-- `unwrap_text_model(model)`. -/
def Model.textModel (M : Model) : Named :=
  match M.languageModel with
  | some lm => lm.model.getD lm.named
  | none => M.named

/-! ### The donors -/

/-- `torch.frombuffer(buf, dtype=torch.bfloat16)`; `none` is an exception. -/
def frombuffer : Bytes → Option (List Bf16)
  | [] => none
  | [_] => none
  | [a, b] => some [(a, b)]
  | a :: b :: buf => (frombuffer buf).map ((a, b) :: ·)

/-- The two sizes that a shape gives a tensor of `n` elements: one of them may be -1. -/
def sizes (n : ℕ) : List ℤ → Option (ℕ × ℕ)
  | [r, c] =>
    if 0 ≤ r ∧ 0 ≤ c ∧ r * c = n then some (r.toNat, c.toNat)
    else if r = -1 ∧ 0 < c ∧ c ∣ n then some (n / c.toNat, c.toNat)
    else if c = -1 ∧ 0 < r ∧ r ∣ n then some (r.toNat, n / r.toNat)
    else none
  | _ => none

/-- `height` rows of `cols` elements, from the elements in order. -/
def Mat.ofElems (height cols : ℕ) (elems : List Bf16) (h : elems.length = height * cols) :
    Mat Bf16 where
  rows := (List.range height).map fun i => (elems.drop (i * cols)).take cols
  cols := cols
  len := by
    simp only [List.mem_map, List.mem_range]
    rintro _ ⟨i, hi, rfl⟩
    have : (i + 1) * cols ≤ height * cols := Nat.mul_le_mul_right _ hi
    rw [List.length_take, List.length_drop, h]
    rw [Nat.succ_mul] at this
    omega

/-- `.reshape(shape)` to two dimensions; `none` is an exception, and so is any other number of
dimensions, with which the copy that follows fails. -/
def reshape (elems : List Bf16) (shape : List ℤ) : Option (Mat Bf16) :=
  match sizes elems.length shape with
  | none => none
  | some (r, c) => if h : elems.length = r * c then some (Mat.ofElems r c elems h) else none

/-- `meta[L]`: the entries of the table by `int(k)`, the last one where two are equal. -/
def lookupMeta (table : List (Text × Info)) (L : ℤ) : Option Info :=
  (table.reverse.find? fun e => Py.int e.1 = some L).map Prod.snd

/-- The table of the manifest that is used; `none` is an exception. -/
def Manifest.table (man : Manifest) : Option (List (Text × Info)) :=
  let table := if man.layers ≠ [] then man.layers else man.tensors
  if table.all fun e => (Py.int e.1).isSome then some table else none

/-- The checks of a wanted layer that the manifest lists. -/
def checkInfo (d : Dir) (L : ℤ) (info : Info) : Except Error (ℤ × Info) :=
  match d.bin L with
  | none => .error (.missing L)
  | some bytes =>
    match info.nbytes with
    | none => .error .other
    | some n =>
      if (bytes.length : ℤ) ≠ n then .error (.size L)
      else if info.dtype ≠ some ['B', 'F', '1', '6'] then .error (.dtype L)
      else if info.sha256 = none ∨ info.sha256 = some [] then .error (.noSha256 L)
      else .ok (L, info)

/-- `_transplant_meta(ablit_dir, layers)`. -/
def transplantMeta (env : Env) (d : Dir) (layers : List ℤ) : Except Error (List (ℤ × Info)) :=
  match d.manifest with
  | none => .error .noManifest
  | some t =>
    match (env.loads t).bind Manifest.table with
    | none => .error .other
    | some table => do
      let listed := layers.filterMap fun L => (lookupMeta table L).map fun info => (L, info)
      let out ← listed.mapM fun e => checkInfo d e.1 e.2
      if out = [] then .error .noCover else .ok out

/-- `_read_donor(tdir, L, info)`. -/
def readDonor (env : Env) (d : Dir) (L : ℤ) (info : Info) : Except Error (Mat Bf16) :=
  match d.bin L, info.nbytes with
  | some bytes, some n =>
    let buf := bytes.take n.toNat
    if n < 0 then .error .other
    else if buf.length ≠ n.toNat then .error (.shortRead L)
    else if info.sha256 ≠ some (env.hexdigest buf) then .error (.sha256 L)
    else
      match (frombuffer buf).bind fun elems => info.shape.bind (reshape elems) with
      | some t => .ok t
      | none => .error .other
  | _, _ => .error .other

/-- `_StreamedDonors`: the donor of a layer, read on access. -/
def streamedDonors (env : Env) (d : Dir) (listed : List (ℤ × Info)) (L : ℤ) :
    Except Error (Mat Bf16) :=
  match listed.lookup L with
  | none => .error (.noDonor L)
  | some info => readDonor env d L info

/-! ### The hook -/

/-- Where the loop of `apply_transplant` stands. -/
structure Loop where
  seen : List ModuleId
  weights : Weights
  report : Report

/-- The columns of this rank. -/
def shard (env : Env) (donor : Mat Bf16) (localIn : ℕ) : Mat Bf16 :=
  if env.world = 1 then donor else donor.slice (env.rank * localIn) ((env.rank + 1) * localIn)

/-- A turn of the loop. -/
def transplantOne (env : Env) (donors : ℤ → Except Error (Mat Bf16)) (want : List ℤ)
    (includeMtp : Bool) (s : Loop) (c : Candidate) : Except Error Loop :=
  if c.mod ∈ s.seen then .ok s
  else if isMtp c.name && !includeMtp then
    .ok { s with
      seen := c.mod :: s.seen
      report := { s.report with skipped := s.report.skipped ++ [c.name] } }
  else if c.idx ∉ want then .ok { s with seen := c.mod :: s.seen }
  else
    match donors c.idx with
    | .error e => .error e
    | .ok donor =>
      match s.weights c.mod with
      | none => .error (.noWeight c.name)
      | some weight =>
        if donor.height ≠ weight.height ∨ donor.cols ≠ weight.cols * env.world then
          .error (.shape c.name)
        else
          .ok ⟨c.mod :: s.seen, Function.update s.weights c.mod
            (some (shard env donor weight.cols)),
            { s.report with
              editedLayers := s.report.editedLayers ++ [c.idx]
              mtpEdited := s.report.mtpEdited || isMtp c.name }⟩

/-- `apply_transplant(model, donors, layers, include_mtp)`. -/
def applyTransplant (env : Env) (M : Model) (donors : ℤ → Except Error (Mat Bf16)) (layers : List ℤ)
    (includeMtp : Bool) (w : Weights) : Except Error (Weights × Report) := do
  let candidates ← walkOProj M.textModel
  let s ← candidates.foldlM (transplantOne env donors layers includeMtp) ⟨[], w, ⟨[], [], false⟩⟩
  return (s.weights,
    { s.report with editedLayers := s.report.editedLayers.insertionSort (· ≤ ·) })

/-- The part of `maybe_apply` for the transplant. -/
def transplant (env : Env) (M : Model) (layers : List ℤ) (w : Weights) :
    Except Error (Weights × Option Report) :=
  if env.tdir.manifest = none then .error .noTransplant
  else do
    let listed ← transplantMeta env env.tdir layers
    let r ← applyTransplant env M (streamedDonors env env.tdir listed) layers env.knobs.includeMtp w
    if r.2.editedLayers = [] ∧ r.2.mtpEdited = false then .error .matchedNothing
    else .ok (r.1, some r.2)

/-- `maybe_apply(model)`. -/
def maybeApply (env : Env) (M : Model) (w : Weights) : Except Error (Weights × Option Report) :=
  if !envFlag env.knobs.ABLIT false then .ok (w, none)
  else
    match parseLayers env.knobs.layersSpec with
    | .error e => .error (.layers e)
    | .ok layers =>
      if env.knobs.transplants then transplant env M layers w
      else if env.knobs.method ≠ ['p', 'r', 'o', 'j'] then .error .badMethod
      else (env.proj layers env.knobs.includeMtp M w).map fun r => (r.1, some r.2)

/-! ### The walk -/

/-- **What the walk finds**: `o_proj` modules, each module once, and every one of them. -/
theorem walkFrom_spec {named : Named} : ∀ {seen : List ModuleId} {cs : List Candidate},
    walkFrom seen named = .ok cs →
      (∀ c ∈ cs, (c.name, c.mod) ∈ named ∧ IsOProj c.name c.idx ∧ c.mod ∉ seen) ∧
      (cs.map Candidate.mod).Nodup ∧
      ∀ e ∈ named, (oProj e.1).isSome → e.2 ∈ seen ∨ ∃ c ∈ cs, c.mod = e.2 := by
  induction named with
  | nil =>
    intro seen cs h
    cases h
    simp
  | cons e named ih =>
    obtain ⟨name, m⟩ := e
    intro seen cs h
    rw [walkFrom] at h
    by_cases hm : m ∈ seen
    · rw [if_pos hm] at h
      obtain ⟨h1, h2, h3⟩ := ih h
      refine ⟨fun c hc => ⟨List.mem_cons_of_mem _ (h1 c hc).1, (h1 c hc).2⟩, h2, ?_⟩
      rintro e he ho
      rcases List.mem_cons.mp he with rfl | he
      · exact Or.inl hm
      · exact h3 e he ho
    rw [if_neg hm] at h
    cases hd : oProj name with
    | none =>
      simp only [hd] at h
      obtain ⟨h1, h2, h3⟩ := ih h
      refine ⟨fun c hc => ⟨List.mem_cons_of_mem _ (h1 c hc).1, (h1 c hc).2⟩, h2, ?_⟩
      rintro e he ho
      rcases List.mem_cons.mp he with rfl | he
      · simp [hd] at ho
      · exact h3 e he ho
    | some d =>
      cases hn : Py.int d with
      | none => simp [hd, hn] at h
      | some idx =>
        simp only [hd, hn] at h
        cases hw : walkFrom (m :: seen) named with
        | error e => simp [hw, Except.map] at h
        | ok cs' =>
          simp only [hw, Except.map, Except.ok.injEq] at h
          subst h
          obtain ⟨h1, h2, h3⟩ := ih hw
          refine ⟨?_, ?_, ?_⟩
          · intro c hc
            rcases List.mem_cons.mp hc with rfl | hc
            · exact ⟨List.mem_cons_self, by simp [IsOProj, hd, hn], hm⟩
            · obtain ⟨hmem, ho, hnot⟩ := h1 c hc
              exact ⟨List.mem_cons_of_mem _ hmem, ho, fun h => hnot (List.mem_cons_of_mem _ h)⟩
          · rw [List.map_cons, List.nodup_cons]
            refine ⟨fun hmem => ?_, h2⟩
            obtain ⟨c, hc, he⟩ := List.mem_map.mp hmem
            exact (h1 c hc).2.2 (he ▸ List.mem_cons_self)
          · rintro e he ho
            rcases List.mem_cons.mp he with rfl | he
            · exact Or.inr ⟨_, List.mem_cons_self, rfl⟩
            · rcases h3 e he ho with hs | ⟨c, hc, hce⟩
              · rcases List.mem_cons.mp hs with hs | hs
                · exact Or.inr ⟨_, List.mem_cons_self, hs.symm⟩
                · exact Or.inl hs
              · exact Or.inr ⟨c, List.mem_cons_of_mem _ hc, hce⟩

/-- The walk ends if the numbers in the names can be read. -/
theorem exists_walkFrom {named : Named}
    (h : ∀ e ∈ named, (oProj e.1).isSome → ∃ idx, IsOProj e.1 idx) : ∀ seen : List ModuleId,
    ∃ cs, walkFrom seen named = .ok cs := by
  induction named with
  | nil => exact fun seen => ⟨[], rfl⟩
  | cons e named ih =>
    obtain ⟨name, m⟩ := e
    intro seen
    have ih := ih fun e he => h e (List.mem_cons_of_mem _ he)
    rw [walkFrom]
    split_ifs with hm
    · exact ih seen
    cases hd : oProj name with
    | none => exact ih seen
    | some d =>
      obtain ⟨idx, hidx⟩ := h (name, m) List.mem_cons_self (by simp [hd])
      obtain ⟨cs, hcs⟩ := ih (m :: seen)
      have hn : Py.int d = some idx := by simpa [IsOProj, hd] using hidx
      exact ⟨⟨name, idx, m⟩ :: cs, by simp [hn, hcs, Except.map]⟩

/-! ### Sound donors -/

/-- The table of the manifest in a directory. -/
def Env.table (env : Env) (d : Dir) : Option (List (Text × Info)) :=
  (d.manifest.bind env.loads).bind Manifest.table

/-- The donor of a layer: the file of the directory, of the size and the sha256 that the manifest
lists for it, as a tensor of the shape that the manifest lists. -/
structure IsDonor (env : Env) (d : Dir) (L : ℤ) (donor : Mat Bf16) : Prop where
  intro ::
  verified : ∃ table info bytes elems shape, env.table d = some table ∧
    lookupMeta table L = some info ∧ d.bin L = some bytes ∧ checkInfo d L info = .ok (L, info) ∧
    info.sha256 = some (env.hexdigest bytes) ∧ frombuffer bytes = some elems ∧
    info.shape = some shape ∧ reshape elems shape = some donor

theorem IsDonor.unique {env : Env} {d : Dir} {L : ℤ} {a b : Mat Bf16} (ha : IsDonor env d L a)
    (hb : IsDonor env d L b) : a = b := by
  obtain ⟨table, info, bytes, elems, shape, ht, hi, hb1, -, -, hf, hs, hr⟩ := ha.verified
  obtain ⟨table', info', bytes', elems', shape', ht', hi', hb1', -, -, hf', hs', hr'⟩ := hb.verified
  obtain rfl := Option.some.inj (ht.symm.trans ht')
  obtain rfl := Option.some.inj (hi.symm.trans hi')
  obtain rfl := Option.some.inj (hb1.symm.trans hb1')
  obtain rfl := Option.some.inj (hf.symm.trans hf')
  obtain rfl := Option.some.inj (hs.symm.trans hs')
  exact Option.some.inj (hr.symm.trans hr')

theorem checkInfo_ok {d : Dir} {L : ℤ} {info : Info} {e : ℤ × Info}
    (h : checkInfo d L info = .ok e) :
    e = (L, info) ∧ ∃ bytes, d.bin L = some bytes ∧ info.nbytes = some (bytes.length : ℤ) := by
  rw [checkInfo] at h
  cases hb : d.bin L with
  | none => simp [hb] at h
  | some bytes =>
    cases hn : info.nbytes with
    | none => simp [hb, hn] at h
    | some n =>
      simp only [hb, hn] at h
      split_ifs at h with h1 h2 h3
      exact ⟨(Except.ok.inj h).symm, bytes, rfl, by rw [not_not.mp h1]⟩

/-- Reading the donor of an entry that has been checked. -/
theorem readDonor_ok_iff {env : Env} {d : Dir} {L : ℤ} {info : Info} {bytes : Bytes}
    (hb : d.bin L = some bytes) (hn : info.nbytes = some (bytes.length : ℤ)) {donor : Mat Bf16} :
    readDonor env d L info = .ok donor ↔ info.sha256 = some (env.hexdigest bytes) ∧
      ∃ elems shape, frombuffer bytes = some elems ∧ info.shape = some shape ∧
        reshape elems shape = some donor := by
  simp only [readDonor, hb, hn, Int.toNat_natCast, List.take_length, ne_eq, not_true_eq_false,
    if_false, Int.natCast_nonneg, not_lt.mpr]
  by_cases hs : info.sha256 = some (env.hexdigest bytes)
  · rw [if_neg (not_not.mpr hs)]
    cases frombuffer bytes with
    | none => simp
    | some elems =>
      cases info.shape with
      | none => simp
      | some shape => cases hr : reshape elems shape <;> simp [hs, hr]
  · simp [hs]

theorem lookup_listed (f : ℤ → Option Info) (layers : List ℤ) (L : ℤ) :
    (layers.filterMap fun L => (f L).map fun info => (L, info)).lookup L =
      if L ∈ layers then f L else none := by
  induction layers with
  | nil => simp
  | cons L' layers ih =>
    cases hf : f L' with
    | none =>
      rw [List.filterMap_cons_none (by simp [hf]), ih]
      by_cases he : L = L'
      · subst he
        simp [hf]
      · simp [he]
    | some info =>
      rw [List.filterMap_cons_some (by simp [hf]; rfl), List.lookup_cons, ih]
      by_cases he : L = L'
      · subst he
        simp [hf]
      · simp [he, beq_false_of_ne he]

theorem mapM_checkInfo {d : Dir} {listed out : List (ℤ × Info)} :
    (listed.mapM fun e => checkInfo d e.1 e.2) = .ok out ↔
      out = listed ∧ ∀ e ∈ listed, checkInfo d e.1 e.2 = .ok e := by
  rw [Except.mapM_ok_iff]
  induction listed generalizing out with
  | nil => simp
  | cons e listed ih =>
    rw [List.forall₂_cons_left_iff, List.forall_mem_cons]
    constructor
    · rintro ⟨e', out', he, hf, rfl⟩
      obtain ⟨rfl, hall⟩ := ih.mp hf
      obtain ⟨rfl, -⟩ := checkInfo_ok he
      exact ⟨rfl, he, hall⟩
    · rintro ⟨rfl, he, hall⟩
      exact ⟨e, listed, he, ih.mpr ⟨rfl, hall⟩, rfl⟩

/-- **What `_transplant_meta` returns**: the entries of the wanted layers that the manifest
lists, all of them sound. -/
theorem transplantMeta_ok_iff {env : Env} {d : Dir} {layers : List ℤ} {listed : List (ℤ × Info)} :
    transplantMeta env d layers = .ok listed ↔ ∃ table, env.table d = some table ∧
      listed = (layers.filterMap fun L => (lookupMeta table L).map fun info => (L, info)) ∧
      (∀ e ∈ listed, checkInfo d e.1 e.2 = .ok e) ∧ listed ≠ [] := by
  rw [transplantMeta, Env.table]
  cases d.manifest with
  | none => simp
  | some t =>
    simp only [Option.bind_some]
    cases (env.loads t).bind Manifest.table with
    | none => simp
    | some table =>
      simp only [Option.some.injEq, exists_eq_left']
      generalize (layers.filterMap fun L => (lookupMeta table L).map fun info => (L, info)) = es
      cases hm : es.mapM fun e => checkInfo d e.1 e.2 with
      | error e =>
        simp only [bind, Except.bind, reduceCtorEq, false_iff]
        rintro ⟨rfl, hall, -⟩
        rw [mapM_checkInfo.mpr ⟨rfl, hall⟩] at hm
        cases hm
      | ok out =>
        obtain ⟨rfl, hall⟩ := mapM_checkInfo.mp hm
        simp only [bind, Except.bind]
        by_cases hne : out = []
        · rw [if_pos hne]
          simp only [reduceCtorEq, false_iff]
          rintro ⟨rfl, -, h⟩
          exact h hne
        · rw [if_neg hne, Except.ok.injEq]
          constructor
          · rintro rfl
            exact ⟨rfl, hall, hne⟩
          · exact fun h => h.1.symm

/-- The donors that the hook reads are sound, and it reads all that are sound. -/
theorem streamedDonors_ok_iff {env : Env} {d : Dir} {layers : List ℤ} {listed : List (ℤ × Info)}
    (h : transplantMeta env d layers = .ok listed) {L : ℤ} (hL : L ∈ layers) {donor : Mat Bf16} :
    streamedDonors env d listed L = .ok donor ↔ IsDonor env d L donor := by
  obtain ⟨table, ht, hl, hall, -⟩ := transplantMeta_ok_iff.mp h
  have hlook : listed.lookup L = lookupMeta table L := by
    rw [hl, lookup_listed, if_pos hL]
  rw [streamedDonors, hlook]
  cases hi : lookupMeta table L with
  | none =>
    simp only [reduceCtorEq, false_iff]
    rintro ⟨table', info, _, _, _, ht', hi', -⟩
    obtain rfl := Option.some.inj (ht.symm.trans ht')
    rw [hi] at hi'
    cases hi'
  | some info =>
    have hc : checkInfo d L info = .ok (L, info) :=
      hall (L, info) (by rw [hl]; exact List.mem_filterMap.mpr ⟨L, hL, by rw [hi]; rfl⟩)
    obtain ⟨-, bytes, hb, hn⟩ := checkInfo_ok hc
    rw [readDonor_ok_iff hb hn]
    constructor
    · rintro ⟨hs, elems, shape, hf, hsh, hr⟩
      exact ⟨table, info, bytes, elems, shape, ht, hi, hb, hc, hs, hf, hsh, hr⟩
    · rintro ⟨table', info', bytes', elems, shape, ht', hi', hb', -, hs, hf, hsh, hr⟩
      obtain rfl := Option.some.inj (ht.symm.trans ht')
      obtain rfl := Option.some.inj (hi.symm.trans hi')
      obtain rfl := Option.some.inj (hb.symm.trans hb')
      exact ⟨hs, elems, shape, hf, hsh, hr⟩

end Glm53Serve.Ablit.Runtime
