import Glm53Serve.Torch.Tensor
import Glm53Serve.Py.Text
import Mathlib.Data.List.DropRight

/-!
# Loading the EXL3 experts

`_load_exl3` of `exl3.py`: the weight loader of the eight packed parameters that `create_weights`
registers. A call maps the global expert to a local one, reads the suffix from the tail of the
weight's name, takes the slice of this rank and copies it into the slot of the expert.

## The model

A parameter is the list of its elements (`Store`), and a destination is a chunk of it (`Slot`, with
the bound as a field). A loaded tensor is contiguous and has the dtype of its parameter, so `copy_`
is a copy. The owner, which `create_weights` sets, is the expert map: `none` is `-1`. A call
returns the store it leaves, also where it raises; a load stops at the first call that raises.

## What is proved

* `restored` — the slices of all ranks, joined, are the tensor.
* `part_cases` — what is sliced and where, by the shard and the suffix.
* `loadExl3_of_fails`, `loadExl3_of_not_fails` — a call that raises, and one that copies.
-/

namespace Glm53Serve.Exl3.Loading

open Torch

variable {α : Type}

/-! ### Parameters -/

/-- The packed tensors of a matrix. -/
inductive Suffix where
  | trellis
  | suh
  | svh
  | mcg
  deriving DecidableEq

def Suffix.text : Suffix → Py.Text
  | .trellis => "trellis".toList
  | .suh => "suh".toList
  | .svh => "svh".toList
  | .mcg => "mcg".toList

/-- `EXL3_SUFFIXES`. -/
def exl3Suffixes : List Suffix := [.trellis, .suh, .svh, .mcg]

/-- `w13_*` stacks gate and up. -/
inductive Stack where
  | w13
  | w2
  deriving DecidableEq

/-- A parameter, `w13_trellis` to `w2_mcg`. -/
structure Param where
  stack : Stack
  suffix : Suffix
  deriving DecidableEq

/-- The arguments `create_weights` accepts. -/
structure Dims where
  numExperts : ℕ
  hiddenSize : ℕ
  intermediateSizePerPartition : ℕ
  bits : ℕ
  hidden_tiles : hiddenSize % 16 = 0
  intermediate_tiles : intermediateSizePerPartition % 16 = 0

namespace Dims

variable (dims : Dims)

def kWords : ℕ := dims.bits * 16
def inTiles : ℕ := dims.hiddenSize / 16
def outTiles : ℕ := dims.intermediateSizePerPartition / 16

/-- The shapes `create_weights` allocates. -/
def paramShape : Param → List ℕ
  | ⟨.w13, .trellis⟩ => [dims.numExperts, 2, dims.inTiles, dims.outTiles, dims.kWords]
  | ⟨.w13, .suh⟩ => [dims.numExperts, 2, dims.hiddenSize]
  | ⟨.w13, .svh⟩ => [dims.numExperts, 2, dims.intermediateSizePerPartition]
  | ⟨.w13, .mcg⟩ => [dims.numExperts, 2, 1]
  | ⟨.w2, .trellis⟩ => [dims.numExperts, dims.outTiles, dims.inTiles, dims.kWords]
  | ⟨.w2, .suh⟩ => [dims.numExperts, dims.intermediateSizePerPartition]
  | ⟨.w2, .svh⟩ => [dims.numExperts, dims.hiddenSize]
  | ⟨.w2, .mcg⟩ => [dims.numExperts, 1]

end Dims

variable {dims : Dims}

/-- The elements of every parameter. -/
@[ext]
structure Store (α : Type) (dims : Dims) where
  data : Param → List α
  len : ∀ p, (data p).length = (dims.paramShape p).prod

/-- A part of a parameter that integer indices select. -/
@[ext]
structure Slot (dims : Dims) where
  param : Param
  /-- Parts of this shape before it. -/
  index : ℕ
  shape : List ℕ
  fits : (index + 1) * shape.prod ≤ (dims.paramShape param).prod

namespace Slot

/-- `param.data`. -/
def whole (p : Param) : Slot dims where
  param := p
  index := 0
  shape := dims.paramShape p
  fits := by rw [Nat.zero_add, Nat.one_mul]

/-- `t[i]`; `none` is `IndexError`. -/
def select (s : Slot dims) (i : ℕ) : Option (Slot dims) :=
  match hs : s.shape with
  | [] => none
  | n :: rest =>
    if h : i < n then
      some {
        param := s.param
        index := s.index * n + i
        shape := rest
        fits := by
          have hle : s.index * n + i + 1 ≤ (s.index + 1) * n := by
            rw [Nat.succ_mul]
            omega
          calc
            (s.index * n + i + 1) * rest.prod ≤ (s.index + 1) * n * rest.prod :=
              Nat.mul_le_mul_right _ hle
            _ = (s.index + 1) * s.shape.prod := by rw [hs, List.prod_cons, Nat.mul_assoc]
            _ ≤ (dims.paramShape s.param).prod := s.fits }
    else none

/-- `param.data[i, ..]`. -/
def indexed (p : Param) (is : List ℕ) : Option (Slot dims) := is.foldlM select (whole p)

end Slot

namespace Store

/-- `dest.copy_(t)`. -/
def copy (st : Store α dims) (dest : Slot dims) (t : Tensor α) (h : dest.shape = t.shape) :
    Store α dims where
  data := Function.update st.data dest.param
    (setChunk dest.shape.prod dest.index t.data (st.data dest.param))
  len p := by
    rcases eq_or_ne p dest.param with rfl | hp
    · rw [Function.update_self, length_setChunk (h ▸ t.len) (st.len _ ▸ dest.fits), st.len]
    · rw [Function.update_of_ne hp, st.len]

/-- The tensor in a slot. -/
def tensor (st : Store α dims) (s : Slot dims) : Tensor α where
  shape := s.shape
  data := chunk s.shape.prod s.index (st.data s.param)
  len := length_chunk (st.len _ ▸ s.fits)

end Store

/-! ### The loader -/

/-- What a call raises, with the values of its message. -/
inductive LoadError where
  /-- `ValueError(f"not an EXL3 packed name: ...")` -/
  | notPacked (weightName : Py.Text)
  /-- `ValueError(f"EXL3 TP shard: dim ... size ... is not divisible by tp=...")` -/
  | notDivisible (dim size tpSize : ℕ)
  /-- `IndexError` of `shape[dim]`. -/
  | noDim (dim : ℕ)
  /-- `RuntimeError` of `narrow`. -/
  | badNarrow
  /-- `IndexError` of `param.data[...]`. -/
  | badIndex
  /-- `ValueError(f"unknown EXL3 shard_id=...")` -/
  | unknownShard (shardId : Py.Text)
  /-- `RuntimeError(f"EXL3 load shape mismatch ... shard=... expert=...: dest ... != loaded ...")`
  -/
  | shapeMismatch (weightName shardId : Py.Text) (expertId : ℕ) (dest loaded : List ℕ)

/-- `_suffix_from_mapped_name`. -/
def suffixFromMappedName (weightName : Py.Text) : Except LoadError Suffix :=
  let tail := weightName.rtakeWhile (· ≠ '.')
  match exl3Suffixes.find? fun s => tail = s.text || ('_' :: s.text).isSuffixOf tail with
  | some s => .ok s
  | none => .error (.notPacked weightName)

/-- `_narrow_tp`. -/
def narrowTp (tensor : Tensor α) (dim tpRank tpSize : ℕ) : Except LoadError (Tensor α) :=
  if tpSize ≤ 1 then .ok tensor
  else
    match tensor.shape[dim]? with
    | none => .error (.noDim dim)
    | some size =>
      if size % tpSize ≠ 0 then .error (.notDivisible dim size tpSize)
      else
        let chunk := size / tpSize
        (tensor.narrow dim (chunk * tpRank) chunk).elim (.error .badNarrow) .ok

/-- `shard_exl3_col`. -/
def shardExl3Col (loaded : Tensor α) (suffix : Suffix) (tpRank tpSize : ℕ) :
    Except LoadError (Tensor α) :=
  if suffix = .trellis then narrowTp loaded 1 tpRank tpSize
  else if suffix = .svh then narrowTp loaded 0 tpRank tpSize
  else .ok loaded

/-- `shard_exl3_row`. -/
def shardExl3Row (loaded : Tensor α) (suffix : Suffix) (tpRank tpSize : ℕ) :
    Except LoadError (Tensor α) :=
  if suffix = .trellis then narrowTp loaded 0 tpRank tpSize
  else if suffix = .suh then narrowTp loaded 0 tpRank tpSize
  else .ok loaded

/-- The arguments of a call. -/
structure Call (α : Type) where
  param : Param
  loadedWeight : Tensor α
  weightName : Py.Text
  shardId : Py.Text
  /-- The global expert. -/
  expertId : ℕ
  returnSuccess : Bool

/-- The shards of an expert: gate, up and down. -/
inductive Shard where
  | w1
  | w3
  | w2
  deriving DecidableEq

def Shard.text : Shard → Py.Text
  | .w1 => "w1".toList
  | .w3 => "w3".toList
  | .w2 => "w2".toList

/-- `dest` and `sharded` of a call for a local expert. -/
def destSharded (tpRank tpSize : ℕ) (c : Call α) (localId : ℕ) :
    Except LoadError (Slot dims × Tensor α) := do
  let suffix ← suffixFromMappedName c.weightName
  if c.shardId = Shard.w1.text ∨ c.shardId = Shard.w3.text then
    let shardIdx := if c.shardId = Shard.w1.text then 0 else 1
    let sharded ← shardExl3Col c.loadedWeight suffix tpRank tpSize
    let dest ← (Slot.indexed c.param [localId, shardIdx]).elim (.error .badIndex) .ok
    return (dest, sharded)
  else if c.shardId = Shard.w2.text then
    let sharded ← shardExl3Row c.loadedWeight suffix tpRank tpSize
    let dest ← (Slot.indexed c.param [localId]).elim (.error .badIndex) .ok
    return (dest, sharded)
  else .error (.unknownShard c.shardId)

/-- `_load_exl3`: the store it leaves, and what it returns or raises. -/
def loadExl3 (tpSize : ℕ) (expertMap : ℕ → Option (Fin dims.numExperts)) (tpRank : ℕ) (c : Call α)
    (st : Store α dims) : Store α dims × Except LoadError (Option Bool) :=
  match expertMap c.expertId with
  | none => (st, .ok (if c.returnSuccess then some false else none))
  | some localId =>
    match destSharded tpRank tpSize c localId with
    | .error e => (st, .error e)
    | .ok (dest, sharded) =>
      if h : dest.shape = sharded.shape then
        (st.copy dest sharded h, .ok (if c.returnSuccess then some true else none))
      else (st, .error (.shapeMismatch c.weightName c.shardId localId dest.shape sharded.shape))

/-- The calls of a rank, one after the other. -/
def loadAll (tpSize : ℕ) (expertMap : ℕ → Option (Fin dims.numExperts)) (tpRank : ℕ) :
    List (Call α) → Store α dims → Store α dims × Option LoadError
  | [], st => (st, none)
  | c :: cs, st =>
    match loadExl3 tpSize expertMap tpRank c st with
    | (st, .ok _) => loadAll tpSize expertMap tpRank cs st
    | (st, .error e) => (st, some e)

/-! ### What a call is for -/

namespace Call

/-- The suffix in the name. -/
def suffix (c : Call α) : Option Suffix := (suffixFromMappedName c.weightName).toOption

def shard (c : Call α) : Option Shard := [Shard.w1, Shard.w3, Shard.w2].find? fun sh =>
    c.shardId = sh.text

/-- The tensor the call supplies. -/
def supplies (c : Call α) : Option (ℕ × Shard × Suffix) := do
  return (c.expertId, ← c.shard, ← c.suffix)

end Call

def Shard.stack : Shard → Stack
  | .w1 | .w3 => .w13
  | .w2 => .w2

/-- The parameter is the one the shard and the name denote. -/
def Call.Denotes (c : Call α) : Prop := ∀ e sh s, c.supplies = some (e, sh, s) →
    c.param = ⟨sh.stack, s⟩

/-- The dimension that is cut. -/
def partDim : Shard → Suffix → Option ℕ
  | .w1, .trellis | .w3, .trellis => some 1
  | .w1, .svh | .w3, .svh => some 0
  | .w2, .trellis | .w2, .suh => some 0
  | _, _ => none

/-- The shape of an expert's tensor on one rank. -/
def Dims.cellShape (dims : Dims) : Shard → Suffix → List ℕ
  | .w1, s | .w3, s => (dims.paramShape ⟨.w13, s⟩).drop 2
  | .w2, s => (dims.paramShape ⟨.w2, s⟩).drop 1

theorem paramShape_w13 (dims : Dims) (s : Suffix) :
    dims.paramShape ⟨.w13, s⟩ = dims.numExperts :: 2 :: dims.cellShape .w1 s := by cases s <;> rfl

theorem paramShape_w2 (dims : Dims) (s : Suffix) :
    dims.paramShape ⟨.w2, s⟩ = dims.numExperts :: dims.cellShape .w2 s := by cases s <;> rfl

theorem partDim_lt {sh : Shard} {s : Suffix} {d : ℕ} (h : partDim sh s = some d) :
    d < (dims.cellShape sh s).length := by
  cases sh <;> cases s <;> cases h <;> simp [Dims.cellShape, Dims.paramShape]

/-- The slot of an expert's tensor. -/
def place (e : Fin dims.numExperts) (sh : Shard) (s : Suffix) : Slot dims where
  param := ⟨sh.stack, s⟩
  index :=
    match sh with
    | .w1 => e * 2
    | .w3 => e * 2 + 1
    | .w2 => e
  shape := dims.cellShape sh s
  fits := by
    have he := e.2
    cases sh with
    | w1 | w3 =>
      rw [Shard.stack, paramShape_w13, List.prod_cons, List.prod_cons, ← Nat.mul_assoc]
      exact Nat.mul_le_mul_right _ (by simp only; omega)
    | w2 =>
      rw [Shard.stack, paramShape_w2, List.prod_cons]
      exact Nat.mul_le_mul_right _ he

theorem Slot.select_cons {s : Slot dims} {n i : ℕ} {rest : List ℕ} (hs : s.shape = n :: rest)
    (hi : i < n) :
    ∃ t, s.select i = some t ∧ t.param = s.param ∧ t.index = s.index * n + i ∧ t.shape = rest := by
  unfold Slot.select
  split
  · rename_i hnil
    exact absurd (hnil.symm.trans hs) nofun
  · rename_i m tail hcons
    obtain ⟨rfl, rfl⟩ := List.cons_eq_cons.mp (hcons.symm.trans hs)
    rw [dif_pos hi]
    exact ⟨_, rfl, rfl, rfl, rfl⟩

theorem indexed_w13 (e : Fin dims.numExperts) (s : Suffix) {i : ℕ} (hi : i < 2) :
    Slot.indexed ⟨.w13, s⟩ [↑e, i] = some (place e (if i = 0 then .w1 else .w3) s) := by
  have hwhole : (Slot.whole ⟨.w13, s⟩ : Slot dims).shape = _ := paramShape_w13 dims s
  obtain ⟨t, ht, hparam, hindex, hshape⟩ := Slot.select_cons hwhole e.2
  obtain ⟨u, hu, uparam, uindex, ushape⟩ := Slot.select_cons hshape hi
  rw [Slot.indexed, List.foldlM_cons, ht, Option.bind_eq_bind, Option.bind_some,
    List.foldlM_cons, hu]
  rw [Option.bind_eq_bind, Option.bind_some, List.foldlM_nil, Option.pure_def, Option.some.injEq]
  have hindex : u.index = e * 2 +
    i := by rw [uindex, hindex, Slot.whole, Nat.zero_mul, Nat.zero_add]
  have hparam : u.param = ⟨.w13, s⟩ := uparam.trans hparam
  obtain rfl | rfl : i = 0 ∨ i = 1 := by omega
  · exact Slot.ext hparam hindex ushape
  · exact Slot.ext hparam hindex ushape

theorem indexed_w2 (e : Fin dims.numExperts) (s : Suffix) :
    Slot.indexed ⟨.w2, s⟩ [↑e] = some (place e .w2 s) := by
  have hwhole : (Slot.whole ⟨.w2, s⟩ : Slot dims).shape = _ := paramShape_w2 dims s
  obtain ⟨t, ht, hparam, hindex, hshape⟩ := Slot.select_cons hwhole e.2
  rw [Slot.indexed, List.foldlM_cons, ht, Option.bind_eq_bind, Option.bind_some, List.foldlM_nil,
    Option.pure_def,
    Option.some.injEq]
  exact Slot.ext hparam (by rw [hindex, Slot.whole, Nat.zero_mul, Nat.zero_add]; rfl) hshape

/-! ### The slice of a rank -/

/-- What a rank stores of a tensor that is cut along a dimension, or not cut. -/
def part (tpSize tpRank : ℕ) (loaded : Tensor α) : Option ℕ → Except LoadError (Tensor α)
  | some d => narrowTp loaded d tpRank tpSize
  | none => .ok loaded

/-- Its shape. -/
def partShape (tpSize : ℕ) (shape : List ℕ) : Option ℕ → List ℕ
  | some d => shape.set d (shape.getD d 0 / tpSize)
  | none => shape

/-- `t` is the slice of a rank. -/
def IsPart (tpSize tpRank : ℕ) (loaded t : Tensor α) : Option ℕ → Prop
  | some d =>
    ∃ len, loaded.shape[d]? = some (len * tpSize) ∧ loaded.narrow d (len * tpRank) len = some t
  | none => t = loaded

/-- The parts, in the order of the ranks, make the tensor. -/
def Restored (loaded : Tensor α) (parts : List (Tensor α)) : Option ℕ → Prop
  | some d => Tensor.cat d parts = (loaded.shape, loaded.data)
  | none => ∀ t ∈ parts, t = loaded

theorem restored {tpSize : ℕ} {loaded : Tensor α} {dim : Option ℕ} {slice : ℕ → Tensor α}
    (htp : 0 < tpSize)
    (h : ∀ r < tpSize, IsPart tpSize r loaded (slice r) dim) :
    Restored loaded ((List.range tpSize).map slice) dim := by
  cases dim with
  | none =>
    intro t ht
    obtain ⟨r, hr, rfl⟩ := List.mem_map.mp ht
    exact h r (List.mem_range.mp hr)
  | some d =>
    obtain ⟨len, hsize, -⟩ := h 0 htp
    refine Tensor.cat_narrow hsize htp fun r hr => ?_
    obtain ⟨len', hsize', hslice⟩ := h r hr
    obtain rfl := Nat.eq_of_mul_eq_mul_right htp (Option.some.inj (hsize.symm.trans hsize'))
    exact hslice

/-- A cut fails exactly where the TP size does not divide the dimension or there is none. -/
theorem narrowTp_cases (loaded : Tensor α) (d : ℕ) {tpRank tpSize : ℕ} (hr : tpRank < tpSize) :
    (∃ t, narrowTp loaded d tpRank tpSize = .ok t ∧ tpSize ∣ loaded.shape.getD d 0 ∧
      t.shape = partShape tpSize loaded.shape (some d) ∧
      (d < loaded.shape.length → IsPart tpSize tpRank loaded t (some d))) ∨
    (∃ e, narrowTp loaded d tpRank tpSize = .error e) ∧
      (tpSize ∣ loaded.shape.getD d 0 → loaded.shape.length ≤ d) := by
  unfold narrowTp
  split
  · obtain rfl : tpSize = 1 := by omega
    obtain rfl : tpRank = 0 := by omega
    refine .inl ⟨loaded, rfl, one_dvd _, ?_, fun hd => ⟨loaded.shape[d], ?_, ?_⟩⟩
    · rw [partShape, Nat.div_one]
      rcases Nat.lt_or_ge d loaded.shape.length with hd | hd
      · rw [List.getD_eq_getElem?_getD, List.getElem?_eq_getElem hd, Option.getD_some,
          List.set_getElem_self]
      · rw [List.set_eq_of_length_le hd]
    · rw [Nat.mul_one, List.getElem?_eq_getElem hd]
    · rw [Nat.mul_zero]
      exact Tensor.narrow_all (List.getElem?_eq_getElem hd)
  · split
    · exact .inr ⟨⟨_, rfl⟩, fun _ => List.getElem?_eq_none_iff.mp ‹_›⟩
    · rename_i size hsize
      have hget : loaded.shape.getD d 0 =
        size := by rw [List.getD_eq_getElem?_getD, hsize, Option.getD_some]
      rw [hget]
      split
      · rename_i hmod
        exact .inr ⟨⟨_, rfl⟩, fun hdvd => absurd (Nat.mod_eq_zero_of_dvd hdvd) hmod⟩
      · rename_i hmod
        obtain ⟨len, rfl⟩ := Nat.dvd_of_mod_eq_zero (not_not.mp hmod)
        rw [Nat.mul_comm] at hsize hget ⊢
        have hdiv : len * tpSize / tpSize = len := Nat.mul_div_cancel _ (by omega)
        have hfits : len * tpRank + len ≤ len * tpSize := by
          rw [← Nat.mul_succ]
          exact Nat.mul_le_mul_left len hr
        obtain ⟨t, ht⟩ := Option.isSome_iff_exists.mp (Tensor.narrow_isSome hsize hfits)
        refine .inl ⟨t, ?_, Nat.dvd_mul_left _ _, ?_, fun _ => ⟨len, hsize, ht⟩⟩
        · simp only [hdiv, ht, Option.elim_some]
        · rw [partShape, hget, hdiv, (Tensor.narrow_eq hsize ht).1]

/-! ### A call -/

/-- The shard or the name is unknown, the TP size does not divide the dimension that is cut, or the
shape of the slice is not that of its slot. -/
def Call.Fails (dims : Dims) (tpSize : ℕ) (c : Call α) : Prop :=
  match c.shard, c.suffix with
  | some sh, some s =>
    (∃ d, partDim sh s = some d ∧ ¬tpSize ∣ c.loadedWeight.shape.getD d 0) ∨
      partShape tpSize c.loadedWeight.shape (partDim sh s) ≠ dims.cellShape sh s
  | _, _ => True

theorem Call.supplies_eq {c : Call α} {sh : Shard} {s : Suffix} (hsh : c.shard = some sh)
    (hs : c.suffix = some s) :
    c.supplies = some (c.expertId, sh, s) := by
  rw [supplies, hsh, hs]
  rfl

theorem suffixFromMappedName_eq {c : Call α} {s : Suffix} (h : c.suffix = some s) :
    suffixFromMappedName c.weightName = .ok s := by
  rw [Call.suffix] at h
  cases hname : suffixFromMappedName c.weightName with
  | error e => rw [hname] at h; exact absurd h nofun
  | ok s' =>
    rw [hname] at h
    exact congrArg _ (Option.some.inj h)

theorem shardExl3Col_eq (loaded : Tensor α) {sh : Shard} (hsh : sh.stack = .w13) (s : Suffix)
    (tpRank tpSize : ℕ) :
    shardExl3Col loaded s tpRank tpSize = part tpSize tpRank loaded (partDim sh s) := by
  cases sh <;> cases hsh <;> cases s <;> rfl

theorem shardExl3Row_eq (loaded : Tensor α) (s : Suffix) (tpRank tpSize : ℕ) :
    shardExl3Row loaded s tpRank tpSize = part tpSize tpRank loaded
      (partDim .w2 s) := by cases s <;> rfl

theorem Call.shard_eq {c : Call α} {sh : Shard} (h : c.shard = some sh) : c.shardId = sh.text := by
  rw [Call.shard] at h
  have := List.find?_some h
  exact of_decide_eq_true this

/-- A call that names a tensor takes the slice and its slot. -/
theorem destSharded_eq {c : Call α} {sh : Shard} {s : Suffix} (tpRank tpSize : ℕ)
    (e : Fin dims.numExperts)
    (hsh : c.shard = some sh) (hs : c.suffix = some s) (hparam : c.param = ⟨sh.stack, s⟩) :
    destSharded tpRank tpSize c e = (part tpSize tpRank c.loadedWeight (partDim sh s)).map fun t =>
      (place e sh s, t) := by
  have hname := suffixFromMappedName_eq hs
  have hid := Call.shard_eq hsh
  rw [destSharded, hname, hid, hparam]
  show (if _ then _ else _) = _
  cases sh with
  | w1 =>
    rw [if_pos (Or.inl rfl), shardExl3Col_eq _ (show Shard.w1.stack = .w13 from rfl)]
    simp only [↓reduceIte, Shard.stack, indexed_w13 e s (i := 0) (by decide)]
    cases part tpSize tpRank c.loadedWeight (partDim .w1 s) <;> rfl
  | w3 =>
    have hne : Shard.w3.text ≠ Shard.w1.text := by decide
    rw [if_pos (Or.inr rfl), if_neg hne, shardExl3Col_eq _ (show Shard.w3.stack = .w13 from rfl),
      Shard.stack,
      indexed_w13 e s (by decide)]
    cases part tpSize tpRank c.loadedWeight (partDim .w3 s) <;> rfl
  | w2 =>
    have hne : ¬(Shard.w2.text = Shard.w1.text ∨ Shard.w2.text = Shard.w3.text) := by decide
    rw [if_neg hne, if_pos rfl, shardExl3Row_eq, Shard.stack, indexed_w2]
    cases part tpSize tpRank c.loadedWeight (partDim .w2 s) <;> rfl

theorem destSharded_error {c : Call α} {tpRank tpSize localId : ℕ}
    (h : c.shard = none ∨ c.suffix = none) :
    ∃ err, (destSharded tpRank tpSize c localId : Except LoadError (Slot dims × Tensor α)) =
      .error err := by
  rw [destSharded]
  cases hname : suffixFromMappedName c.weightName with
  | error err => exact ⟨err, rfl⟩
  | ok s =>
    have hshard : c.shard = none := h.resolve_right (by rw [Call.suffix, hname]; exact nofun)
    rw [Call.shard, List.find?_eq_none] at hshard
    have hne : ∀ sh, c.shardId ≠ Shard.text sh :=
      fun sh heq => hshard sh (by cases sh <;> decide) (decide_eq_true heq)
    refine ⟨.unknownShard c.shardId, ?_⟩
    show (if _ then _ else _) = _
    rw [if_neg (by rintro (h | h); exacts [hne .w1 h, hne .w3 h]), if_neg (hne .w2)]

section

variable {tpSize tpRank : ℕ} {expertMap : ℕ → Option (Fin dims.numExperts)} {c : Call α}

/-- A call for an expert of another rank changes nothing. -/
theorem loadExl3_nonlocal (h : expertMap c.expertId = none) (st : Store α dims) :
    loadExl3 tpSize expertMap tpRank c st =
      (st, .ok (if c.returnSuccess then some false else none)) := by
  rw [loadExl3, h]

theorem loadExl3_error {e : Fin dims.numExperts} {err : LoadError}
    (he : expertMap c.expertId = some e)
    (h : (destSharded tpRank tpSize c e : Except LoadError (Slot dims × Tensor α)) = .error err)
    (st : Store α dims) :
    loadExl3 tpSize expertMap tpRank c st = (st, .error err) := by
  rw [loadExl3, he]
  simp only [h]

theorem loadExl3_ok {e : Fin dims.numExperts} {dest : Slot dims} {sharded : Tensor α}
    (he : expertMap c.expertId = some e) (h : destSharded tpRank tpSize c e = .ok (dest, sharded))
    (st : Store α dims) :
    loadExl3 tpSize expertMap tpRank c st = if h : dest.shape = sharded.shape then
      (st.copy dest sharded h, .ok (if c.returnSuccess then some true else none))
    else (st, .error (.shapeMismatch c.weightName c.shardId e dest.shape sharded.shape)) := by
  rw [loadExl3, he]
  simp only [h]

/-- The slice of a tensor for a place, and where there is none. -/
theorem part_cases (dims : Dims) (loaded : Tensor α) (sh : Shard) (s : Suffix)
    (hr : tpRank < tpSize) :
    (∃ t, part tpSize tpRank loaded (partDim sh s) = .ok t ∧
      (∀ d, partDim sh s = some d → tpSize ∣ loaded.shape.getD d 0) ∧
      t.shape = partShape tpSize loaded.shape (partDim sh s) ∧
      (t.shape = dims.cellShape sh s → IsPart tpSize tpRank loaded t (partDim sh s))) ∨
    (∃ err, part tpSize tpRank loaded (partDim sh s) = .error err) ∧
      ((∃ d, partDim sh s = some d ∧ ¬tpSize ∣ loaded.shape.getD d 0) ∨
        partShape tpSize loaded.shape (partDim sh s) ≠ dims.cellShape sh s) := by
  cases hdim : partDim sh s with
  | none => exact .inl ⟨loaded, rfl, nofun, rfl, fun _ => rfl⟩
  | some d =>
    have hlen : ∀ n, loaded.shape.set d n = dims.cellShape sh s → d < loaded.shape.length :=
        fun n h => by
      rw [← List.length_set, h]
      exact partDim_lt hdim
    rcases narrowTp_cases loaded d hr with ⟨t, ht, hdvd, hshape, hpart⟩ | ⟨herr, hdvd⟩
    · exact .inl ⟨t, ht, fun d' hd' => Option.some.inj hd' ▸ hdvd, hshape,
        fun h => hpart (hlen _ (hshape.symm.trans h))⟩
    · refine .inr ⟨herr, ?_⟩
      by_cases h : tpSize ∣ loaded.shape.getD d 0
      · exact .inr fun hshape => absurd (hdvd h) (Nat.not_le.mpr (hlen _ hshape))
      · exact .inl ⟨d, rfl, h⟩

theorem loadExl3_of_fails {e : Fin dims.numExperts} (hr : tpRank < tpSize)
    (he : expertMap c.expertId = some e)
    (hc : c.Denotes) (h : c.Fails dims tpSize) :
    ∃ err, ∀ st : Store α dims, loadExl3 tpSize expertMap tpRank c st = (st, .error err) := by
  by_cases hnone : c.shard = none ∨ c.suffix = none
  · obtain ⟨err, herr⟩ := destSharded_error hnone
    exact ⟨err, loadExl3_error he herr⟩
  obtain ⟨sh, hsh⟩ := Option.ne_none_iff_exists'.mp fun h => hnone (.inl h)
  obtain ⟨s, hs⟩ := Option.ne_none_iff_exists'.mp fun h => hnone (.inr h)
  have hdest := destSharded_eq tpRank tpSize e hsh hs (hc _ _ _ (Call.supplies_eq hsh hs))
  rw [Call.Fails, hsh, hs] at h
  rcases part_cases dims c.loadedWeight sh s hr with ⟨t, ht, hdvd, hshape, -⟩ | ⟨⟨err, herr⟩, -⟩
  · rw [ht] at hdest
    have hplace : (place e sh s).shape ≠ t.shape := fun hplace => by
      rcases h with ⟨d, hd, hndvd⟩ | hne
      · exact hndvd (hdvd d hd)
      · exact hne (hshape.symm.trans hplace.symm)
    exact ⟨.shapeMismatch c.weightName c.shardId e (place e sh s).shape t.shape, fun st =>
      (loadExl3_ok he hdest st).trans (dif_neg hplace)⟩
  · rw [herr] at hdest
    exact ⟨err, loadExl3_error he hdest⟩

/-- A call for an expert of this rank that does not fail stores its slice. -/
theorem loadExl3_of_not_fails {e : Fin dims.numExperts} (hr : tpRank < tpSize)
    (he : expertMap c.expertId = some e)
    (hc : c.Denotes) (h : ¬c.Fails dims tpSize) :
    ∃ sh s t, c.supplies = some (c.expertId, sh, s) ∧
      IsPart tpSize tpRank c.loadedWeight t (partDim sh s) ∧
      ∃ hshape : (place e sh s).shape = t.shape, ∀ st :
      Store α dims, loadExl3 tpSize expertMap tpRank c st =
        (st.copy (place e sh s) t hshape, .ok (if c.returnSuccess then some true else none)) := by
  rw [Call.Fails] at h
  cases hsh : c.shard with
  | none => exact absurd trivial (by rwa [hsh] at h)
  | some sh =>
    cases hs : c.suffix with
    | none => exact absurd trivial (by rwa [hsh, hs] at h)
    | some s =>
      rw [hsh, hs] at h
      have hdest := destSharded_eq tpRank tpSize e hsh hs (hc _ _ _ (Call.supplies_eq hsh hs))
      rcases part_cases dims c.loadedWeight sh s hr with ⟨t, ht, -, hshape, hpart⟩ | ⟨-, hfails⟩
      · have hcell : t.shape = dims.cellShape sh s := hshape.trans (not_not.mp (not_or.mp h).2)
        have hplace : (place e sh s).shape = t.shape := hcell.symm
        rw [ht] at hdest
        exact ⟨sh, s, t, Call.supplies_eq hsh hs, hpart hcell, hplace, fun st =>
          (loadExl3_ok he hdest st).trans (dif_pos hplace)⟩
      · exact absurd hfails h

end

end Glm53Serve.Exl3.Loading
