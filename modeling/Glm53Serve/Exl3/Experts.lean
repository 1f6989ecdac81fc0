import Glm53Serve.Torch.Ops

/-!
# EXL3 routed experts

The packed experts of one layer, what the extension computes with them, the routing of a
token's ids to the experts of this rank, and the plain loop over the experts.

## The model

A tensor of rows is a function of the token; arithmetic is exact, so a cast between float
types is the identity and rows may be added in any order. `X` is a hidden row that enters
an expert, `I` an intermediate row, `V` a row of the output, `W` a routing weight. What the
extension and the elementwise functions compute on one row is a parameter (`Ext`), and
`Ext.Contract` is what the overlay relies on.

`mcg` and `mul1` are left out: the load refuses every marker but one.

## What is proved

* `mapTopkToLocal_eq` — the routing of the fused path and that of the loop agree where the
  expert map covers the id.
* `routings_agree_iff` — they disagree exactly at the ids past the map that are below the
  number of local experts.
* `applyExl3PythonLoop_eq` — the loop adds, once each, the rows of the experts it keeps.
-/

namespace Glm53Serve.Exl3

open Torch

/-! ### The packed experts -/

/-- A packed matrix: `packed` is its trellis and `svh`. -/
structure LinearExl3 (S P : Type*) where
  /-- The signs in front of the input Hadamard transform. -/
  suh : S
  packed : P
  /-- Bits a weight. -/
  k : ℕ

/-- One expert of this rank. -/
structure Pack (S P : Type*) where
  gate : LinearExl3 S P
  up : LinearExl3 S P
  down : LinearExl3 S P

/-- One launch of the fused kernel. -/
structure MoeCall (T : ℕ) (S P X W L : Type*) where
  xh : Fin T → X
  /-- One count an expert, and the count of the rows of no expert. -/
  expertCount : List ℕ
  tokenSorted : List (Fin T)
  weightSorted : List W
  /-- Rows of the temporary buffers. -/
  tempRows : ℕ
  ptrs : List (Pack S P)
  limit : L
  numActive : Option ℤ

/-- What the extension computes on one row: the fat GEMMs are the repository's kernels, which are
compiled into it, and the rest comes from outside the repository. -/
structure Ext (S P X I V W L : Type*) where
  /-- `LinearEXL3.forward` of a gate or up matrix, on a row. -/
  forward13 : LinearExl3 S P → X → I
  /-- `LinearEXL3.forward` of a down matrix. -/
  forward2 : LinearExl3 S P → I → V
  /-- `had_r_128(·, ·, suh, None, 1.0)` on a hidden row. -/
  hadR128 : S → X → X
  /-- `had_r_128(·, ·, suh, None, 1.0)` on an intermediate row. -/
  hadR128Act : S → I → I
  /-- `reconstruct`, `hgemm` and `had_r_128(·, ·, None, svh, 1.0)` of a gate or up matrix. -/
  hgemm13 : P → ℕ → X → I
  /-- The same of a down matrix. -/
  hgemm2 : P → ℕ → I → V
  sigmoid : I → I
  /-- `clamp(max=limit)`. -/
  clampMax : L → I → I
  /-- `clamp(min=-limit, max=limit)`. -/
  clamp : L → I → I
  /-- The fat GEMM over a stacked gate and up matrix, on a row. -/
  exl3FatGemm : Option (P × P → ℕ → X → I × I)
  exl3FatGemmPipe : Option (P × P → ℕ → X → I × I)
  /-- The fat GEMM of a down matrix, which adds its weighted rows to the output. -/
  exl3FatGemmScatter :
    Option ((T : ℕ) → List I → P → (Fin T → V) → List (Fin T) → List W → ℕ → Fin T → V)
  exl3FatGemmPipeScatter :
    Option ((T : ℕ) → List I → P → (Fin T → V) → List (Fin T) → List W → ℕ → Fin T → V)
  /-- The fused kernel: the output after the launch. -/
  exl3Moe : {T : ℕ} → MoeCall T S P X W L → (Fin T → V) → Fin T → V
  /-- `_exl3_moe_accepts_num_active(fn)`. -/
  acceptsNumActive : Bool

section Rows

variable {S P X I V W L : Type*} [Mul I]

/-- `F.silu`. -/
def Ext.silu (ext : Ext S P X I V W L) (g : I) : I := g * ext.sigmoid g

/-- `F.silu(gate.clamp(max=limit)) * up.clamp(min=-limit, max=limit)`. -/
def Ext.swiglu (ext : Ext S P X I V W L) (limit : L) (gate up : I) : I :=
  ext.silu (ext.clampMax limit gate) * ext.clamp limit up

/-- What an expert makes of one row. -/
def Ext.expert (ext : Ext S P X I V W L) (limit : L) (pack : Pack S P) (x : X) : V :=
  ext.forward2 pack.down
    (ext.swiglu limit (ext.forward13 pack.gate x) (ext.forward13 pack.up x))

/-- Gate, up, activation and down of the rows routed to an expert. -/
def Ext.runExpert (ext : Ext S P X I V W L) (limit : L) (pack : Pack S P) (h : List X) : List V :=
  let gate := h.map (ext.forward13 pack.gate)
  let up := h.map (ext.forward13 pack.up)
  let act := List.zipWith (ext.swiglu limit) gate up
  act.map (ext.forward2 pack.down)

theorem Ext.runExpert_eq (ext : Ext S P X I V W L) (limit : L) (pack : Pack S P) (h : List X) :
    ext.runExpert limit pack h = h.map (ext.expert limit pack) := by
  induction h with
  | nil => rfl
  | cons x h ih =>
    simp only [Ext.runExpert, List.map_cons, List.zipWith_cons_cons] at ih ⊢
    rw [ih, Ext.expert]

variable [SMul W V] {T : ℕ}

/-- The weighted rows of an expert, with their tokens. -/
def Ext.expertRows (ext : Ext S P X I V W L) (limit : L) (pack : Pack S P) (xh : Fin T → X)
    (assigned : List (Fin T × W)) : List (Fin T × V) :=
  assigned.map fun a => (a.1, a.2 • ext.expert limit pack (xh a.1))

/-- `down * scale`, with the tokens of the rows. -/
theorem zip_runExpert (ext : Ext S P X I V W L) (limit : L) (pack : Pack S P) (xh : Fin T → X)
    (tokens : List (Fin T)) (scale : List W) :
    tokens.zip (List.zipWith (fun y w => w • y) (ext.runExpert limit pack (tokens.map xh)) scale)
      = ext.expertRows limit pack xh (tokens.zip scale) := by
  rw [Ext.runExpert_eq]
  induction tokens generalizing scale with
  | nil => rfl
  | cons t tokens ih =>
    cases scale with
    | nil => simp [Ext.expertRows]
    | cons w scale =>
      simp only [List.map_cons, List.zipWith_cons_cons, List.zip_cons_cons]
      rw [ih, Ext.expertRows, Ext.expertRows, List.map_cons]

end Rows

/-! ### Routing -/

/-- An expert map, and whether it lives on the device of the rows as `long`. -/
structure ExpertMap where
  values : List ℤ
  pinned : Bool

/-- What the fused path raises. -/
inductive Err where
  /-- The pointer tables or the temporary buffers were not built. -/
  | tablesNotBuilt
  /-- The expert map is not on the device. -/
  | mapNotPinned
  /-- `max()` of an empty tensor. -/
  | emptyMax
  /-- `exl3_fat_gemm_pipe` or its scatter is missing. -/
  | pipeMissing
  /-- `exl3_fat_gemm` is missing. -/
  | fatGemmMissing
  /-- `exl3_fat_gemm_scatter` is missing. -/
  | fatScatterMissing
  /-- "exl3_fat_gemm currently supports only K4 MCG tensors". -/
  | fatGemmBits
  /-- `int` of the scratch rows in the environment. -/
  | scratchRows
  /-- An assertion failed. -/
  | assertion
  /-- A list index out of range. -/
  | indexError
  deriving DecidableEq, Repr

/-- One id of `map_topk_to_local`: a local expert, or `nLocal`. -/
def mapId (nLocal : ℕ) : Option (List ℤ) → ℤ → ℤ
  | none, flat => if flat < 0 ∨ flat ≥ nLocal then nLocal else flat
  | some map, flat =>
    let nGlobal := map.length
    let safe := min (max flat 0) (max (nGlobal - 1 : ℤ) 0)
    let mapped := if nGlobal ≠ 0 then map.getD safe.toNat 0 else nLocal
    if flat < 0 ∨ flat ≥ nGlobal ∨ mapped < 0 ∨ mapped ≥ nLocal then nLocal else mapped

/-- `map_topk_to_local`. -/
def mapTopkToLocal (flat : List ℤ) (nLocal : ℕ) (expertMap : Option ExpertMap) :
    Except Err (List ℤ) :=
  match expertMap with
  | none => .ok (flat.map (mapId nLocal none))
  | some map =>
    if map.pinned then .ok (flat.map (mapId nLocal (some map.values))) else .error .mapNotPinned

/-- The expert the loop runs for an id; `none` where it continues with the next id. -/
def loopExpert (nLocal : ℕ) (expertMap : Option ExpertMap) (raw : ℤ) : Option ℕ :=
  if raw < 0 then none
  else
    match expertMap with
    | none => if raw ≥ nLocal then none else some raw.toNat
    | some map =>
      let mapped := if map.values.length > raw.toNat then map.values.getD raw.toNat 0 else raw
      if mapped < 0 then none else if mapped ≥ nLocal then none else some mapped.toNat

/-- The ids of all rows are below the length of the expert map. -/
def Covers (expertMap : Option ExpertMap) (raw : ℤ) : Prop :=
  ∀ map ∈ expertMap, raw < map.values.length

theorem loopExpert_lt {nLocal : ℕ} {expertMap : Option ExpertMap} {raw : ℤ} {e : ℕ}
    (h : loopExpert nLocal expertMap raw = some e) : e < nLocal := by
  unfold loopExpert at h
  cases expertMap with
  | none =>
    simp only at h
    split_ifs at h with h1 h2
    cases h
    omega
  | some map =>
    simp only at h
    split_ifs at h with h1 h2 h3 <;> cases h <;> omega

/-- Where the map covers the id, the fused path routes it to the expert the loop runs, or to
the slot of no expert where the loop skips it. -/
theorem mapId_eq {nLocal : ℕ} {expertMap : Option ExpertMap} {raw : ℤ}
    (hcov : Covers expertMap raw) :
    mapId nLocal (expertMap.map ExpertMap.values) raw
      = ((loopExpert nLocal expertMap raw).getD nLocal : ℕ) := by
  cases expertMap with
  | none =>
    simp only [Option.map_none, mapId, loopExpert]
    split_ifs <;> simp_all
  | some map =>
    have hlt : raw < map.values.length := hcov map rfl
    simp only [Option.map_some, mapId, loopExpert]
    by_cases hneg : raw < 0
    · simp [hneg]
    · have hsafe : min (max raw 0) (max (map.values.length - 1 : ℤ) 0) = raw := by omega
      have hne : map.values.length ≠ 0 := by omega
      have hin : map.values.length > raw.toNat := by omega
      simp only [hsafe, hne, ne_eq, not_false_eq_true, ↓reduceIte, hneg, false_or, hin, ge_iff_le,
        not_le.mpr hlt]
      split_ifs <;> simp_all <;> omega

/-- An id past the map: the fused path skips it, the loop takes it for a local id. -/
theorem mapId_of_le (nLocal : ℕ) {map : ExpertMap} {raw : ℤ} (h : map.values.length ≤ raw) :
    mapId nLocal (some map.values) raw = nLocal ∧
      loopExpert nLocal (some map) raw = if raw < nLocal then some raw.toNat else none := by
  have hneg : ¬ raw < 0 := by omega
  constructor
  · rw [mapId]
    exact if_pos (.inr (.inl h))
  · have hout : ¬ map.values.length > raw.toNat := by omega
    simp only [loopExpert, hneg, hout, if_false, ge_iff_le]
    split_ifs <;> first | rfl | omega

theorem mapId_eq_iff (nLocal : ℕ) (expertMap : Option ExpertMap) (raw : ℤ) :
    mapId nLocal (expertMap.map ExpertMap.values) raw
        = ((loopExpert nLocal expertMap raw).getD nLocal : ℕ) ↔
      ∀ map ∈ expertMap, raw < map.values.length ∨ nLocal ≤ raw := by
  by_cases hcov : Covers expertMap raw
  · exact iff_of_true (mapId_eq hcov) fun map hmap => .inl (hcov map hmap)
  obtain ⟨map, rfl, hlen⟩ : ∃ map, expertMap = some map ∧ map.values.length ≤ raw := by
    cases expertMap with
    | none => exact absurd (fun map hmap => by cases hmap) hcov
    | some map => exact ⟨map, rfl, not_lt.mp fun h => hcov fun _ hm => Option.some.inj hm ▸ h⟩
  obtain ⟨hfused, hloop⟩ := mapId_of_le nLocal hlen
  rw [Option.map_some, hfused, hloop]
  simp only [Option.mem_def, Option.some.injEq, forall_eq', not_lt.mpr hlen, false_or]
  split_ifs with h
  · simp only [Option.getD_some]
    omega
  · simpa using not_lt.mp h

/-- **Where the two routings agree**: `map_topk_to_local` gives every id the local expert that
the loop runs for it, or `n_local` where the loop skips it, exactly if no id past the map is
below the number of local experts. -/
theorem routings_agree_iff (flat : List ℤ) (nLocal : ℕ) (expertMap : Option (List ℤ)) :
    mapTopkToLocal flat nLocal (expertMap.map (⟨·, true⟩)) =
        .ok (flat.map fun raw =>
          ((loopExpert nLocal (expertMap.map (⟨·, true⟩)) raw).getD nLocal : ℕ)) ↔
      ∀ raw ∈ flat, ∀ values ∈ expertMap, raw < values.length ∨ nLocal ≤ raw := by
  have hmap : mapTopkToLocal flat nLocal (expertMap.map (⟨·, true⟩)) =
      .ok (flat.map (mapId nLocal expertMap)) := by
    cases expertMap <;> rfl
  rw [hmap, Except.ok.injEq, List.map_inj_left]
  refine forall₂_congr fun raw _ => ?_
  have h := mapId_eq_iff nLocal (expertMap.map (⟨·, true⟩)) raw
  rw [Option.map_map] at h
  cases expertMap with
  | none => simpa using h
  | some values => simpa using h

/-- A map of two experts, and three local ones: for the id 2 the loop runs the expert 2. -/
theorem routings_agree_past_map :
    loopExpert 3 (some ⟨[0, 1], true⟩) 2 = some 2 ∧
      mapTopkToLocal [2] 3 (some ⟨[0, 1], true⟩) ≠
        .ok ([2].map fun raw => ((loopExpert 3 (some ⟨[0, 1], true⟩) raw).getD 3 : ℕ)) := by
  decide

/-- Distinct global experts have distinct local experts. -/
def ExpertMap.Injective (map : ExpertMap) : Prop :=
  ∀ i < map.values.length, ∀ j < map.values.length, 0 ≤ map.values.getD i 0 →
    map.values.getD i 0 = map.values.getD j 0 → i = j

/-- With such a map, two ids of one local expert are equal. -/
theorem loopExpert_injective {nLocal : ℕ} {expertMap : Option ExpertMap} {a b : ℤ} {e : ℕ}
    (hinj : ∀ map ∈ expertMap, map.Injective) (ha : Covers expertMap a) (hb : Covers expertMap b)
    (hea : loopExpert nLocal expertMap a = some e) (heb : loopExpert nLocal expertMap b = some e) :
    a = b := by
  unfold loopExpert at hea heb
  cases expertMap with
  | none =>
    simp only at hea heb
    split_ifs at hea heb
    have h : a.toNat = b.toNat := by rw [Option.some.inj hea, Option.some.inj heb]
    omega
  | some map =>
    have ha := ha map rfl
    have hb := hb map rfl
    have hinj := hinj map rfl
    simp only at hea heb
    split_ifs at hea heb with h1 h2 h3 h4 h5 h6 h7 h8 <;> try omega
    have h := hinj a.toNat (by omega) b.toNat (by omega) (by simp_all) (by simp_all; omega)
    omega

/-! ### The plain loop -/

section Loop

variable {S P X I V W L : Type*} [Mul I] [SMul W V] {T K : ℕ}

/-- The slots of the matrix of ids, row by row. -/
def slots (T K : ℕ) : List (Fin T × Fin K) :=
  (List.finRange T).flatMap fun t => (List.finRange K).map fun k => (t, k)

/-- `ids.reshape(-1)`. -/
def reshape {α : Type*} (m : Fin T → Fin K → α) : List α := (slots T K).map fun p => m p.1 p.2

/-- The body of the loop of `apply_exl3_python_loop`. -/
def loopStep [Add V] (ext : Ext S P X I V W L) (x2d : Fin T → X) (ids : Fin T → Fin K → ℤ)
    (weights : Fin T → Fin K → W) (inners : List (Pack S P)) (expertMap : Option ExpertMap)
    (limit : L) (onlyExperts : Option (List ℕ)) (out : Fin T → V) (raw : ℤ) : Fin T → V :=
  match loopExpert inners.length expertMap raw with
  | none => out
  | some e =>
    if onlyExperts.any fun only => e ∉ only then out
    else if h : e < inners.length then
      let nonzero := (slots T K).filter fun p => ids p.1 p.2 = raw
      let tokenIdx := nonzero.map Prod.fst
      let down := ext.runExpert limit inners[e] (tokenIdx.map x2d)
      let scale := nonzero.map fun p => weights p.1 p.2
      indexAdd out (tokenIdx.zip (List.zipWith (fun y w => w • y) down scale))
    else out

/-- `apply_exl3_python_loop`; `onlyExperts` and `out` are its optional arguments. -/
def applyExl3PythonLoop [Zero V] [Add V] (ext : Ext S P X I V W L) (x2d : Fin T → X)
    (ids : Fin T → Fin K → ℤ) (weights : Fin T → Fin K → W) (inners : List (Pack S P))
    (expertMap : Option ExpertMap) (limit : L) (onlyExperts : Option (List ℕ))
    (out : Option (Fin T → V)) : Fin T → V :=
  (unique (reshape ids)).foldl
    (loopStep ext x2d ids weights inners expertMap limit onlyExperts) (out.getD 0)

/-- What a slot routed to the expert `e` contributes: its weighted row, if `keep` keeps the
expert. -/
def slotRows (ext : Ext S P X I V W L) (x2d : Fin T → X) (weights : Fin T → Fin K → W)
    (inners : List (Pack S P)) (limit : L) (keep : ℕ → Bool) (e : Option ℕ) (p : Fin T × Fin K) :
    List (Fin T × V) :=
  match e with
  | none => []
  | some e =>
    if h : e < inners.length then
      if keep e then ext.expertRows limit inners[e] x2d [(p.1, weights p.1 p.2)] else []
    else []

/-- What the routing contributes, slot by slot. -/
def routedRows (ext : Ext S P X I V W L) (x2d : Fin T → X) (ids : Fin T → Fin K → ℤ)
    (weights : Fin T → Fin K → W) (inners : List (Pack S P)) (expertMap : Option ExpertMap)
    (limit : L) (keep : ℕ → Bool) : List (Fin T × V) :=
  (slots T K).flatMap fun p =>
    slotRows ext x2d weights inners limit keep
      (loopExpert inners.length expertMap (ids p.1 p.2)) p

variable (ext : Ext S P X I V W L) (x2d : Fin T → X) (ids : Fin T → Fin K → ℤ)
  (weights : Fin T → Fin K → W) (inners : List (Pack S P)) (expertMap : Option ExpertMap)
  (limit : L)

theorem flatMap_slotRows {keep : ℕ → Bool} {e : ℕ} (he : e < inners.length)
    (l : List (Fin T × Fin K)) :
    l.flatMap (slotRows ext x2d weights inners limit keep (some e))
      = if keep e then ext.expertRows limit inners[e] x2d
          (l.map fun p => (p.1, weights p.1 p.2)) else [] := by
  by_cases hkeep : keep e
  · rw [if_pos hkeep]
    induction l with
    | nil => rfl
    | cons p l ih =>
      rw [List.flatMap_cons, ih]
      simp [slotRows, he, hkeep, Ext.expertRows]
  · rw [if_neg hkeep, List.flatMap_eq_nil_iff]
    intro p _
    simp [slotRows, hkeep]

/-- One id of the loop adds the contributions of its slots. -/
theorem loopStep_eq [Add V] (onlyExperts : Option (List ℕ)) (out : Fin T → V) (raw : ℤ) :
    loopStep ext x2d ids weights inners expertMap limit onlyExperts out raw
      = indexAdd out (((slots T K).filter fun p => ids p.1 p.2 = raw).flatMap
          (slotRows ext x2d weights inners limit (fun e => onlyExperts.all fun only => e ∈ only)
            (loopExpert inners.length expertMap raw))) := by
  unfold loopStep
  cases hraw : loopExpert inners.length expertMap raw with
  | none =>
    have hnil : ((slots T K).filter fun p => ids p.1 p.2 = raw).flatMap
        (slotRows ext x2d weights inners limit (fun e => onlyExperts.all fun only => e ∈ only) none)
        = [] := List.flatMap_eq_nil_iff.mpr fun _ _ => rfl
    rw [hnil, indexAdd_nil]
  | some e =>
    have he : e < inners.length := loopExpert_lt hraw
    have hany : (onlyExperts.any fun only => decide (e ∉ only))
        = !(onlyExperts.all fun only => decide (e ∈ only)) := by
      cases onlyExperts <;> simp
    rw [flatMap_slotRows ext x2d weights inners limit he]
    simp only [hany, he, ↓reduceDIte]
    cases onlyExperts.all fun only => decide (e ∈ only) with
    | false => rfl
    | true =>
      simp only [Bool.not_true, Bool.false_eq_true, ↓reduceIte]
      rw [zip_runExpert, List.zip_map']

/-- The loop adds, once each, the contributions of the experts it keeps. -/
theorem applyExl3PythonLoop_eq [AddCommMonoid V] (onlyExperts : Option (List ℕ))
    (out : Option (Fin T → V)) :
    applyExl3PythonLoop ext x2d ids weights inners expertMap limit onlyExperts out
      = indexAdd (out.getD 0) (routedRows ext x2d ids weights inners expertMap limit
          fun e => onlyExperts.all fun only => e ∈ only) := by
  have hloop : loopStep ext x2d ids weights inners expertMap limit onlyExperts = fun o raw =>
      indexAdd o (((slots T K).filter fun p => ids p.1 p.2 = raw).flatMap
        (slotRows ext x2d weights inners limit (fun e => onlyExperts.all fun only => e ∈ only)
          (loopExpert inners.length expertMap raw))) := by
    funext o raw
    exact loopStep_eq ext x2d ids weights inners expertMap limit onlyExperts o raw
  rw [applyExl3PythonLoop, hloop, foldl_indexAdd, routedRows]
  refine indexAdd_perm _ ((Segments.flatMap_filter_perm (nodup_unique _) (slots T K)
    (fun p => ids p.1 p.2) _).trans (List.Perm.of_eq ?_))
  refine List.flatMap_congr fun p hp => if_pos ?_
  rw [mem_unique, reshape]
  exact List.mem_map_of_mem hp

/-- Splitting the experts in two groups splits the contributions. -/
theorem indexAdd_routedRows_split [AddCommMonoid V] (out : Fin T → V) (keep : ℕ → Bool) :
    indexAdd (indexAdd out (routedRows ext x2d ids weights inners expertMap limit keep))
        (routedRows ext x2d ids weights inners expertMap limit fun e => !keep e)
      = indexAdd out (routedRows ext x2d ids weights inners expertMap limit fun _ => true) := by
  rw [← indexAdd_append]
  refine indexAdd_perm _ ((List.flatMap_append_perm _ _ _).trans (List.Perm.of_eq ?_))
  refine List.flatMap_congr fun p _ => ?_
  cases loopExpert inners.length expertMap (ids p.1 p.2) with
  | none => rfl
  | some e =>
    simp only [slotRows]
    by_cases hkeep : keep e <;> by_cases he : e < inners.length <;> simp [he, hkeep]

end Loop

end Glm53Serve.Exl3
