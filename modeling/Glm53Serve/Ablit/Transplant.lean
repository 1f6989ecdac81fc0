import Glm53Serve.Ablit.FetchBytes
import Glm53Serve.Py.Int
import Glm53Serve.Py.Json

/-!
# Fetching the transplant

`ablit/fetch_transplant.py` downloads one tensor for every requested layer into
`L{n}.bin` and keeps a `MANIFEST.json`. A run that is killed is resumed by the next one.

## The model

The output directory is its files. A run of `main` is a machine that takes one write a
turn: `L{n}.tmp`, the replacement of `L{n}.bin` by it, and the manifest. What
`json.loads` finds in the header of a shard is a function of its bytes, as are the sha256
sums. The layer map, which only a message depends on, the waiting and the messages are
left out, as is `--check`; a manifest whose `layers` or an entry in it is not an object
counts as an exception.

## What is proved

* `turn_cases` — what a turn of the loop writes, and where it goes on.
* `hasLayer_unique` — the donor has one tensor for a layer.
-/

namespace Glm53Serve.Ablit

open Py Machine

/-! ### `parse_layers` -/

/-- The `SystemExit`s of `parse_layers`. -/
inductive LayersError where
  /-- "ABLIT_LAYERS: bad entry {part!r}". -/
  | badEntry (part : Text)
  /-- "ABLIT_LAYERS: inverted range {part!r}". -/
  | inverted (part : Text)
  /-- "ABLIT_LAYERS resolved to an empty set". -/
  | emptySet
  deriving DecidableEq

/-- The layers of one entry: `n`, or `lo-hi`. -/
def parsePart (part : Text) : Except LayersError (List ℤ) :=
  let lo := part.takeWhile (· ≠ '-')
  let hi := (part.dropWhile (· ≠ '-')).drop 1
  match Py.int lo, Py.int (if hi = [] then lo else hi) with
  | some a, some b =>
    if b < a then .error (.inverted part)
    else .ok ((List.range (b + 1 - a).toNat).map fun i => a + i)
  | _, _ => .error (.badEntry part)

/-- `parse_layers(spec)`. -/
def parseLayers (spec : Text) : Except LayersError (List ℤ) := do
  let parts := ((spec.splitOn ',').map strip).filter (· ≠ [])
  let layers ← parts.mapM parsePart
  if layers.flatten = [] then .error .emptySet else .ok (sortedSet layers.flatten)

example : parseLayers ['1', '-', '3', ',', ' ', '5', ','] = .ok [1, 2, 3, 5] := by decide

/-! ### The donor and the network -/

/-- What `main` reads of a tensor's entry in the header of its shard. -/
structure Meta where
  dtype : Text
  shape : List ℕ
  /-- `data_offsets`. -/
  offsets : ℕ × ℕ

/-- The settings of `fetch_transplant.py`. -/
structure Config where
  /-- `DONOR`. -/
  donor : Text
  /-- `REVISION`. -/
  revision : Text
  /-- `hashlib.sha256(data).hexdigest()`. -/
  sha256 : Bytes → Text
  /-- `json.loads(hdr_bytes)`, by key; `none` is an exception. -/
  header : Bytes → Option (Text → Option Meta)

/-- A tensor that has been fetched. -/
structure Tensor where
  shard : Text
  key : Text
  dtype : Text
  shape : List ℕ
  nbytes : ℕ
  data : Bytes

/-- `int.from_bytes(b, "little")`. -/
def littleEndian (b : Bytes) : ℕ := b.foldr (fun x n => x.toNat + 256 * n) 0

/-- The key of a layer's tensor. -/
def layerKey (L : ℤ) : Text :=
  "model.language_model.layers.".toList ++ Json.intText L ++ ".self_attn.o_proj.weight".toList

/-- The repository of the donor at the revision: its index, and its shards. -/
structure Donor where
  weightMap : Text → Option Text
  shard : Text → Bytes

/-- Where the data of a tensor starts and ends in its shard, by the header. -/
def dataSpan (file : Bytes) (m : Meta) : ℕ × ℕ :=
  (8 + littleEndian (file.take 8) + m.offsets.1, 8 + littleEndian (file.take 8) + m.offsets.2 - 1)

/-- The donor's shard has this tensor under the key. -/
def Donor.HasTensor (cfg : Config) (D : Donor) (shard key : Text) (t : Tensor) : Prop :=
  ∃ hdr m, cfg.header (span (D.shard shard) 8 (8 + littleEndian ((D.shard shard).take 8) - 1)) =
      some hdr ∧ hdr key = some m ∧
    t = ⟨shard, key, m.dtype, m.shape,
      (dataSpan (D.shard shard) m).2 + 1 - (dataSpan (D.shard shard) m).1,
      span (D.shard shard) (dataSpan (D.shard shard) m).1 (dataSpan (D.shard shard) m).2⟩

/-- The donor's tensor for a layer. -/
def Donor.HasLayer (cfg : Config) (D : Donor) (L : ℤ) (t : Tensor) : Prop :=
  ∃ shard, D.weightMap (layerKey L) = some shard ∧ D.HasTensor cfg shard (layerKey L) t

/-- The network of a run. -/
structure Net where
  /-- The index that each attempt gets; `none` is an exception. -/
  index : ℕ → Option (Text → Option Text)
  /-- What reading bytes 0 to 7 of a shard gives. -/
  head : Text → Option Bytes
  /-- The server for a range of a shard. -/
  range : Text → ℕ → ℕ → Server

/-- The loop that fetches the index. -/
def fetchIndex (net : Net) : Option (Text → Option Text) := (List.range RETRIES).findSome? net.index

/-- `safetensors_span(shard_url, headers, key)` gives this; `none` is an exception. -/
def SafetensorsSpan (cfg : Config) (net : Net) (shard key : Text)
    (o : Option (ℕ × ℕ × Meta)) : Prop :=
  match net.head shard with
  | none => o = none
  | some b =>
    let n := littleEndian b
    ∃ r, FetchBytes (net.range shard 8 (8 + n - 1)) 8 (8 + n - 1) r ∧
      o = (((r.result.bind cfg.header).bind fun hdr => hdr key).map fun m =>
        (8 + n + m.offsets.1, 8 + n + m.offsets.2 - 1, m))

/-- Fetching a tensor gives this; `none` is an exception. -/
def FetchTensor (cfg : Config) (net : Net) (shard key : Text) (o : Option Tensor) : Prop :=
  ∃ sp, SafetensorsSpan cfg net shard key sp ∧
    match sp with
    | none => o = none
    | some (start, stop, m) =>
      ∃ r, FetchBytes (net.range shard start stop) start stop r ∧
        o = r.result.map fun data => ⟨shard, key, m.dtype, m.shape, stop + 1 - start, data⟩

/-! ### The output directory -/

/-- The files of the output directory. -/
structure Dir where
  /-- `L{n}.bin`. -/
  bin : ℤ → Option Bytes
  /-- `L{n}.tmp`. -/
  tmp : ℤ → Option Bytes
  /-- `MANIFEST.json`. -/
  manifest : Option Text

/-- A write of `main`. -/
inductive Write where
  | tmp (L : ℤ) (data : Bytes)
  /-- `tmp.replace(out)`. -/
  | replace (L : ℤ)
  | manifest (t : Text)

/-- The directory after a write. -/
def Dir.apply (d : Dir) : Write → Dir
  | .tmp L data => { d with tmp := Function.update d.tmp L (some data) }
  | .replace L =>
    { d with bin := Function.update d.bin L (d.tmp L), tmp := Function.update d.tmp L none }
  | .manifest t => { d with manifest := some t }

/-- What a kill in the middle of a write leaves: a prefix of the file that is written. -/
inductive Dir.Cut (d : Dir) : Write → Dir → Prop where
  | tmp {L : ℤ} {data b : Bytes} (h : b <+: data) : d.Cut (.tmp L data) (d.apply (.tmp L b))
  | manifest {t u : Text} (h : u <+: t) : d.Cut (.manifest t) (d.apply (.manifest u))

/-- A manifest: the fields of a `dict`. -/
abbrev Fields := List (Text × Json)

/-- `dict.get(key) == t` for a text `t`. -/
def holds (fields : Fields) (key t : Text) : Bool :=
  match fields.lookup key with
  | some (.str u) => u = t
  | _ => false

/-- `load_manifest(path)`: an exception, or `None`, or the manifest. -/
def loadManifest (cfg : Config) (file : Option Text) : Option (Option Fields) :=
  match file with
  | none => some none
  | some t =>
    match Json.loads t with
    | some (.obj old) =>
      if holds old "donor".toList cfg.donor && holds old "donor_revision".toList cfg.revision then
        some (some old)
      else some none
    | _ => none

/-- A new manifest, with the layers recorded so far. -/
def newManifest (cfg : Config) (layers : Fields) : Fields :=
  [("donor".toList, .str cfg.donor), ("donor_revision".toList, .str cfg.revision),
    ("method".toList, .str "altered-dealign-oproj-transplant (byte-copy, o_proj)".toList),
    ("layers".toList, .obj layers)]

/-- `manifest["layers"]`; `none` is an exception. -/
def layersOf (manifest : Fields) : Option Fields :=
  match manifest.lookup "layers".toList with
  | some (.obj layers) => some layers
  | _ => none

/-- The entry of a tensor. -/
def entry (cfg : Config) (t : Tensor) : Json :=
  .obj [("shard".toList, .str t.shard), ("key".toList, .str t.key), ("dtype".toList, .str t.dtype),
    ("shape".toList, .arr (t.shape.map fun n => .int n)), ("nbytes".toList, .int t.nbytes),
    ("sha256".toList, .str (cfg.sha256 t.data))]

/-- The test for "already fetched"; `none` is an exception. -/
def alreadyFetched (cfg : Config) (d : Dir) (manifest : Fields) (L : ℤ) : Option Bool :=
  match d.bin L with
  | none => some false
  | some bytes =>
    match layersOf manifest with
    | none => none
    | some layers =>
      match layers.lookup (Json.intText L) with
      | none => some false
      | some (.obj e) => some (holds e "sha256".toList (cfg.sha256 bytes))
      | some _ => none

/-! ### `main` -/

/-- What the network gives a run: the index, and tensors. -/
structure Session where
  weightMap : Text → Option Text
  fetch : Text → Text → Option Tensor

/-- Where the body of the loop stands. -/
inductive Phase where
  | start
  | written (t : Tensor)
  | replaced (t : Tensor)

/-- A run of `main`: the directory, the manifest in memory, the layers to do. -/
structure MainState where
  dir : Dir
  manifest : Fields
  todo : List ℤ
  phase : Phase

/-- How `main` ends. -/
inductive Outcome where
  | returned (code : ℕ)
  /-- An exception, or `SystemExit` with a message. -/
  | raised
  deriving DecidableEq

/-- The end of a run. -/
structure Ended where
  dir : Dir
  outcome : Outcome

/-- `manifest["layers"][str(L)]["nbytes"]`; `none` is an exception. -/
def nbytesOf (recorded : Fields) (L : ℤ) : Option ℤ :=
  match (recorded.lookup (Json.intText L)).bind fun e => e.get "nbytes".toList with
  | some (.int n) => some n
  | _ => none

/-- The value that `main` returns, after it has summed the sizes of what is recorded; `none` is
an exception. -/
def exitCode (layers : List ℤ) (manifest : Fields) : Option ℕ := do
  let recorded ← layersOf manifest
  let present := layers.filter fun L => (recorded.lookup (Json.intText L)).isSome
  let _sizes ← present.mapM (nbytesOf recorded)
  return if present.length = layers.length then 0 else 1

/-- What a turn does: a write, if any, and the state or the outcome after it, apart from the
directory. -/
def turn (cfg : Config) (S : Session) (layers : List ℤ) (s : MainState) :
    Option Write × (Fields × List ℤ × Phase ⊕ Outcome) :=
  match s.todo, s.phase with
  | [], _ =>
    (some (.manifest (Json.dumps (.obj s.manifest))),
      .inr (match exitCode layers s.manifest with
        | some code => .returned code
        | none => .raised))
  | L :: todo, .start =>
    match S.weightMap (layerKey L) with
    | none => (none, .inr .raised)
    | some shard =>
      match alreadyFetched cfg s.dir s.manifest L with
      | none => (none, .inr .raised)
      | some true => (none, .inl (s.manifest, todo, .start))
      | some false =>
        match S.fetch shard (layerKey L) with
        | none => (none, .inr .raised)
        | some t => (some (.tmp L t.data), .inl (s.manifest, L :: todo, .written t))
  | L :: todo, .written t => (some (.replace L), .inl (s.manifest, L :: todo, .replaced t))
  | L :: todo, .replaced t =>
    match layersOf s.manifest with
    | none => (none, .inr .raised)
    | some recorded =>
      let manifest := Json.setKey s.manifest "layers".toList
        (.obj (Json.setKey recorded (Json.intText L) (entry cfg t)))
      (some (.manifest (Json.dumps (.obj manifest))), .inl (manifest, todo, .start))

/-- The directory after a turn. -/
def Dir.applyAll (d : Dir) (w : Option Write) : Dir := w.elim d d.apply

/-- A turn of `main`. -/
def mainStep (cfg : Config) (S : Session) (layers : List ℤ) (s : MainState) : MainState ⊕ Ended :=
  match turn cfg S layers s with
  | (w, .inl (manifest, todo, phase)) => .inl ⟨s.dir.applyAll w, manifest, todo, phase⟩
  | (w, .inr outcome) => .inr ⟨s.dir.applyAll w, outcome⟩

/-- The loop starts with the manifest that is there, or a new one. -/
def mainInit (cfg : Config) (layers : List ℤ) (d : Dir) (old : Option Fields) : MainState :=
  ⟨d, old.getD (newManifest cfg []), layers, .start⟩

/-- `main()` with `ABLIT_LAYERS` set to `spec` ends so. -/
def Main (cfg : Config) (net : Net) (spec : Text) (d : Dir) (r : Ended) : Prop :=
  match parseLayers spec, fetchIndex net with
  | .ok layers, some weightMap =>
    match loadManifest cfg d.manifest with
    | none => r = ⟨d, .raised⟩
    | some old =>
      ∃ fetch : Text → Text → Option Tensor,
        (∀ L ∈ layers, ∀ shard, weightMap (layerKey L) = some shard →
          FetchTensor cfg net shard (layerKey L) (fetch shard (layerKey L))) ∧
        Ends (mainStep cfg ⟨weightMap, fetch⟩ layers) (mainInit cfg layers d old) r
  | _, _ => r = ⟨d, .raised⟩

variable {cfg : Config} {D : Donor}

theorem hasTensor_unique {shard key : Text} {t t' : Tensor} (h : D.HasTensor cfg shard key t)
    (h' : D.HasTensor cfg shard key t') : t = t' := by
  obtain ⟨hdr, m, hh, hm, rfl⟩ := h
  obtain ⟨hdr', m', hh', hm', rfl⟩ := h'
  obtain rfl := Option.some.inj (hh.symm.trans hh')
  obtain rfl := Option.some.inj (hm.symm.trans hm')
  rfl

theorem hasLayer_unique {L : ℤ} {t t' : Tensor} (h : D.HasLayer cfg L t)
    (h' : D.HasLayer cfg L t') :
    t = t' := by
  obtain ⟨shard, hs, ht⟩ := h
  obtain ⟨shard', hs', ht'⟩ := h'
  obtain rfl := Option.some.inj (hs.symm.trans hs')
  exact hasTensor_unique ht ht'

/-- What a turn of the loop does, by the place in its body. -/
theorem turn_cases {S : Session} {layers : List ℤ} {s : MainState} {w : Option Write}
    {manifest : Fields} {todo : List ℤ} {phase : Phase}
    (h : turn cfg S layers s = (w, .inl (manifest, todo, phase))) :
    (∃ L, s.todo = L :: todo ∧ s.phase = .start ∧
      alreadyFetched cfg s.dir s.manifest L = some true ∧
        w = none ∧ manifest = s.manifest ∧ phase = .start) ∨
      (∃ L todo' shard t, s.todo = L :: todo' ∧ s.phase = .start ∧
        S.weightMap (layerKey L) = some shard ∧
        S.fetch shard (layerKey L) = some t ∧ w = some (.tmp L t.data) ∧ manifest = s.manifest ∧
        todo = s.todo ∧ phase = .written t) ∨
      (∃ L todo' t, s.todo = L :: todo' ∧ s.phase = .written t ∧ w = some (.replace L) ∧
        manifest = s.manifest ∧ todo = s.todo ∧ phase = .replaced t) ∨
      ∃ L t recorded, s.todo = L :: todo ∧ s.phase = .replaced t ∧
        layersOf s.manifest = some recorded ∧
        manifest = Json.setKey s.manifest "layers".toList
          (.obj (Json.setKey recorded (Json.intText L) (entry cfg t))) ∧
        w = some (.manifest (Json.dumps (.obj manifest))) ∧ phase = .start := by
  obtain ⟨dir, m, ls, ph⟩ := s
  cases ls with
  | nil => simp [turn] at h
  | cons L ls =>
    cases ph with
    | start =>
      simp only [turn] at h
      split at h
      · simp at h
      rename_i shard hshard
      split at h
      · simp at h
      · rename_i hf
        simp only [Prod.mk.injEq, Sum.inl.injEq] at h
        obtain ⟨rfl, rfl, rfl, rfl⟩ := h
        exact .inl ⟨L, rfl, rfl, hf, rfl, rfl, rfl⟩
      · split at h
        · simp at h
        · rename_i t ht
          simp only [Prod.mk.injEq, Sum.inl.injEq] at h
          obtain ⟨rfl, rfl, rfl, rfl⟩ := h
          exact .inr (.inl ⟨L, ls, shard, t, rfl, rfl, hshard, ht, rfl, rfl, rfl, rfl⟩)
    | written t =>
      simp only [turn, Prod.mk.injEq, Sum.inl.injEq] at h
      obtain ⟨rfl, rfl, rfl, rfl⟩ := h
      exact .inr (.inr (.inl ⟨L, ls, t, rfl, rfl, rfl, rfl, rfl, rfl⟩))
    | replaced t =>
      simp only [turn] at h
      split at h
      · simp at h
      · rename_i recorded hrec
        simp only [Prod.mk.injEq, Sum.inl.injEq] at h
        obtain ⟨rfl, rfl, rfl, rfl⟩ := h
        exact .inr (.inr (.inr ⟨L, t, recorded, rfl, rfl, hrec, rfl, rfl, rfl⟩))

end Glm53Serve.Ablit
