import Mathlib.Algebra.BigOperators.Pi
import Mathlib.Algebra.Ring.Int.Defs
import Mathlib.Algebra.Ring.Pi
import Mathlib.Data.List.GetD
import Mathlib.Logic.Equiv.Fin.Basic

/-!
# The grouped convolution of the drafter

`_grouped_conv` of `overlay/qwen3_dflash2.py` adds to each row of a buffer multiples of the rows
before it. The buffer holds the blocks of several requests, one after the other; it is shifted as
a whole, and a mask by the position in the block keeps the requests apart.

## The model

A row is a function of its channel, with the channels of the groups one group after the other.
Arithmetic is exact. `none` is a shape that does not fit: no tap at all, or more taps than the
buffer can be shifted by.

## What is proved

* `position_eq_mod` — the two ways of computing the position agree.
* `foldlM_addTap` — the taps up to one of them.
* `groupedConv_row` — an output row, and on what it depends.
* `prepare_row`, `finish_row` — neither side of the module mixes blocks.
-/

namespace Glm53Serve.Dflash

variable {K : Type*} [Semiring K] {numGroups groupSize : ℕ}

/-! ### The convolution -/

/-- A row of `hidden_states`, by channel. -/
abbrev Channels (K : Type*) (numGroups groupSize : ℕ) := Fin (numGroups * groupSize) → K

/-- A row of `blocks`, by group and channel of the group. -/
abbrev Groups (K : Type*) (numGroups groupSize : ℕ) := Fin numGroups → Fin groupSize → K

/-- `x.unflatten(-1, (num_groups, group_size))`. -/
def unflatten (x : Channels K numGroups groupSize) : Groups K numGroups groupSize :=
  fun g i => x (finProdFinEquiv (g, i))

/-- `o.flatten(-2)`. -/
def flatten (o : Groups K numGroups groupSize) : Channels K numGroups groupSize :=
  fun c => o c.divNat c.modNat

/-- `coefficients[row, tap]`. -/
def coefficient (delta : ℕ → ℕ → Fin numGroups → K) (base : ℕ → Channels K numGroups groupSize)
    (row tap : ℕ) : Groups K numGroups groupSize :=
  fun g i => unflatten (base tap) g i + delta row tap g

/-- `position` of a row. -/
def position (blockSize row : ℕ) : ℕ :=
  if blockSize &&& (blockSize - 1) = 0 then row &&& (blockSize - 1) else row % blockSize

/-- `F.pad(blocks[:-tap], (0, 0, 0, 0, tap, 0))`. -/
def shifted {β : Type*} [Zero β] (blocks : List β) (tap : ℕ) : List β :=
  List.replicate tap 0 ++ blocks.take (blocks.length - tap)

/-- A turn of the loop. -/
def addTap (coefficients : ℕ → ℕ → Groups K numGroups groupSize)
    (blocks : List (Groups K numGroups groupSize))
    (blockSize : ℕ) (output : List (Groups K numGroups groupSize)) (tap : ℕ) :
    Option (List (Groups K numGroups groupSize)) :=
  -- a single row is broadcast to the rows of an empty buffer
  if (shifted blocks tap).length = blocks.length ∨ (blocks = [] ∧ tap = 1) then
    some (output.mapIdx fun row o => o + coefficients row tap * (shifted blocks tap).getD row 0 *
      if tap ≤ position blockSize row then 1 else 0)
  else none

/-- `_grouped_conv(hidden_states, delta, base, block_size, num_groups, group_size, taps)`. -/
def groupedConv (hiddenStates : List (Channels K numGroups groupSize))
    (delta : ℕ → ℕ → Fin numGroups → K)
    (base : ℕ → Channels K numGroups groupSize) (blockSize taps : ℕ) :
    Option (List (Channels K numGroups groupSize)) :=
  if taps = 0 then none
  else
    let blocks := hiddenStates.map unflatten
    let coefficients := coefficient delta base
    let output := blocks.mapIdx fun row x => coefficients row 0 * x
    ((List.range' 1 (taps - 1)).foldlM (addTap coefficients blocks blockSize) output).map
      (·.map flatten)

/-! ### The position -/

/-- The two ways of computing the position agree. -/
theorem position_eq_mod {blockSize : ℕ} (h : 1 ≤ blockSize) (row : ℕ) :
    position blockSize row = row % blockSize := by
  rw [position]
  split_ifs with hpow
  · obtain ⟨k, rfl⟩ := (Nat.and_sub_one_eq_zero_iff_isPowerOfTwo (by omega)).mp hpow
    exact Nat.and_two_pow_sub_one_eq_mod row k
  · rfl

/-! ### The taps -/

variable {blockSize : ℕ}

section
variable {coefficients : ℕ → ℕ → Groups K numGroups groupSize}
    {blocks : List (Groups K numGroups groupSize)}

/-- The sum of the taps up to `last` that reach no other block. -/
def tapSum (coefficients : ℕ → ℕ → Groups K numGroups groupSize)
    (blocks : List (Groups K numGroups groupSize))
    (blockSize last row : ℕ) : Groups K numGroups groupSize :=
  ∑ tap ∈ Finset.range (last + 1),
    if tap ≤ row % blockSize then coefficients row tap * blocks.getD (row - tap) 0 else 0

theorem getD_shifted {β : Type*} [Zero β] {blocks : List β} {tap row : ℕ} (htap : tap ≤ row)
    (hrow : row < blocks.length) : (shifted blocks tap).getD row 0 = blocks.getD (row - tap) 0 := by
  rw [shifted, List.getD_append_right _ _ _ _ (by simpa using htap), List.length_replicate,
    List.getD_eq_getElem?_getD, List.getElem?_take_of_lt (by omega), List.getD_eq_getElem?_getD]

/-- A turn adds a tap. -/
theorem addTap_tapSum (hblock : 1 ≤ blockSize) {last : ℕ} (h : last + 1 ≤ blocks.length) :
    addTap coefficients blocks blockSize
        (blocks.mapIdx fun row _ => tapSum coefficients blocks blockSize last row) (last + 1) =
      some (blocks.mapIdx fun row _ => tapSum coefficients blocks blockSize (last + 1) row) := by
  have hlen : (shifted blocks (last + 1)).length = blocks.length := by
    simp only [shifted, List.length_append, List.length_replicate, List.length_take]
    omega
  rw [addTap, if_pos (.inl hlen), Option.some.injEq]
  refine List.ext_getElem (by simp) fun row hrow hrow' => ?_
  have hlt : row < blocks.length := by simpa using hrow
  simp only [List.getElem_mapIdx]
  rw [tapSum, tapSum, Finset.sum_range_succ _ (last + 1), position_eq_mod hblock]
  congr 1
  split_ifs with htap
  · -- the rows that the mask leaves are in the buffer
    have hle : last + 1 ≤ row := htap.trans (Nat.mod_le row blockSize)
    rw [getD_shifted hle hlt, mul_one]
  · rw [mul_zero]

/-- The taps up to `last`. -/
theorem foldlM_addTap (hblock : 1 ≤ blockSize) {last : ℕ} (h : last ≤ blocks.length) :
    (List.range' 1 last).foldlM (addTap coefficients blocks blockSize)
        (blocks.mapIdx fun row x => coefficients row 0 * x) =
      some (blocks.mapIdx fun row _ => tapSum coefficients blocks blockSize last row) := by
  induction last with
  | zero =>
    refine congrArg some (List.ext_getElem (by simp) fun row hrow _ => ?_)
    have hlt : row < blocks.length := by simpa using hrow
    simp [tapSum, List.getElem?_eq_getElem hlt]
  | succ last ih =>
    rw [List.range'_1_concat, List.foldlM_append, ih (by omega)]
    simp only [Option.bind_eq_bind, Option.bind_some, List.foldlM_cons, List.foldlM_nil,
      Nat.add_comm 1 last]
    rw [addTap_tapSum hblock h]
    rfl

/-- The taps that reach no other block are the first ones. -/
theorem tapSum_eq (last row : ℕ) : tapSum coefficients blocks blockSize last row =
    ∑ tap ∈ Finset.range (min last (row % blockSize) + 1),
      coefficients row tap * blocks.getD (row - tap) 0 := by
  rw [tapSum, ← Finset.sum_filter]
  refine Finset.sum_congr ?_ fun _ _ => rfl
  ext tap
  simp only [Finset.mem_filter, Finset.mem_range]
  omega

end

/-! ### The output -/

omit [Semiring K] in
@[simp] theorem unflatten_divNat (x : Channels K numGroups groupSize)
    (c : Fin (numGroups * groupSize)) :
    unflatten x c.divNat c.modNat = x c :=
  congrArg x (finProdFinEquiv.apply_symm_apply c)

/-- The sum of a row of the output. -/
def convRow (hiddenStates : List (Channels K numGroups groupSize))
    (delta : ℕ → ℕ → Fin numGroups → K)
    (base : ℕ → Channels K numGroups groupSize) (blockSize taps row : ℕ) :
    Channels K numGroups groupSize :=
  fun c => ∑ tap ∈ Finset.range (min (taps - 1) (row % blockSize) + 1),
    (base tap c + delta row tap c.divNat) * hiddenStates.getD (row - tap) 0 c

theorem flatten_tapSum (hiddenStates : List (Channels K numGroups groupSize))
    (delta : ℕ → ℕ → Fin numGroups → K) (base : ℕ → Channels K numGroups groupSize) (taps row : ℕ) :
    flatten (tapSum (coefficient delta base) (hiddenStates.map unflatten) blockSize (taps - 1)
      row) =
      convRow hiddenStates delta base blockSize taps row := by
  funext c
  rw [tapSum_eq, flatten, Finset.sum_apply, Finset.sum_apply, convRow]
  refine Finset.sum_congr rfl fun tap _ => ?_
  have hzero : (0 : Groups K numGroups groupSize) = unflatten 0 := rfl
  simp only [Pi.mul_apply, coefficient, unflatten_divNat]
  rw [hzero, List.getD_map, unflatten_divNat]

theorem groupedConv_eq (hiddenStates : List (Channels K numGroups groupSize))
    (delta : ℕ → ℕ → Fin numGroups → K) (base : ℕ → Channels K numGroups groupSize) {taps : ℕ}
    (hblock : 1 ≤ blockSize) (htaps : 1 ≤ taps) (hrows : taps - 1 ≤ hiddenStates.length) :
    groupedConv hiddenStates delta base blockSize taps =
      some (hiddenStates.mapIdx fun row _ =>
        convRow hiddenStates delta base blockSize taps row) := by
  have hfold : (List.range' 1 (taps - 1)).foldlM
      (addTap (coefficient delta base) (hiddenStates.map unflatten) blockSize) _ = some _ :=
    foldlM_addTap hblock (by rwa [List.length_map])
  simp only [groupedConv, if_neg (Nat.one_le_iff_ne_zero.mp htaps), hfold, Option.map_some,
    Option.some.injEq]
  refine List.ext_getElem (by simp) fun row _ _ => ?_
  simp only [List.getElem_map, List.getElem_mapIdx, flatten_tapSum]

/-- A sum reads the rows of the block up to its row. -/
theorem convRow_congr {hiddenStates hiddenStates' : List (Channels K numGroups groupSize)}
    {delta delta' : ℕ → ℕ → Fin numGroups → K} {base : ℕ → Channels K numGroups groupSize}
    {taps row : ℕ}
    (hdelta : ∀ tap < taps, delta row tap = delta' row tap) (htaps : 1 ≤ taps)
    (hrows : ∀ q ≤ row, row - row % blockSize ≤ q →
      hiddenStates.getD q 0 = hiddenStates'.getD q 0) :
    convRow hiddenStates delta base blockSize taps row =
      convRow hiddenStates' delta' base blockSize taps row := by
  funext c
  refine Finset.sum_congr rfl fun tap htap => ?_
  have hlt := Finset.mem_range.mp htap
  rw [hdelta tap (by omega), hrows (row - tap) (by omega) (by omega)]

theorem getD_mapIdx (xs : List (Channels K numGroups groupSize))
    (f : ℕ → Channels K numGroups groupSize)
    {row : ℕ} (h : row < xs.length) : (xs.mapIdx fun row _ => f row).getD row 0 = f row := by
  simp [List.getElem?_eq_getElem h]

/-- An output row depends on the rows of its block up to it. -/
theorem groupedConv_congr {hiddenStates hiddenStates' output output' :
    List (Channels K numGroups groupSize)}
    {delta delta' : ℕ → ℕ → Fin numGroups → K} {base : ℕ → Channels K numGroups groupSize}
    {taps row : ℕ}
    (hblock : 1 ≤ blockSize) (hrows : taps - 1 ≤ hiddenStates.length)
    (hrows' : taps - 1 ≤ hiddenStates'.length)
    (h : groupedConv hiddenStates delta base blockSize taps = some output)
    (h' : groupedConv hiddenStates' delta' base blockSize taps = some output')
    (hrow : row < hiddenStates.length) (hrow' : row < hiddenStates'.length)
    (hdelta : ∀ tap < taps, delta row tap = delta' row tap)
    (hsame : ∀ q ≤ row, row - row % blockSize ≤ q →
      hiddenStates.getD q 0 = hiddenStates'.getD q 0) :
    output.getD row 0 = output'.getD row 0 := by
  have htaps : 1 ≤ taps := by
    by_contra h0
    rw [groupedConv, if_pos (by omega)] at h
    cases h
  rw [groupedConv_eq hiddenStates delta base hblock htaps hrows, Option.some.injEq] at h
  rw [groupedConv_eq hiddenStates' delta' base hblock htaps hrows', Option.some.injEq] at h'
  rw [← h, ← h', getD_mapIdx _ _ hrow, getD_mapIdx _ _ hrow', convRow_congr hdelta htaps hsame]

/-- **The grouped convolution**: an output row is the sum of the taps within its block, so inputs
that agree on the rows of the block up to it give the same output row. Without a tap there is no
output. -/
theorem groupedConv_row (hiddenStates : List (Channels K numGroups groupSize))
    (delta : ℕ → ℕ → Fin numGroups → K) (base : ℕ → Channels K numGroups groupSize) (taps : ℕ)
    (hblock : 1 ≤ blockSize) (hrows : taps - 1 ≤ hiddenStates.length) :
    (taps = 0 → groupedConv hiddenStates delta base blockSize taps = none) ∧
      (1 ≤ taps → ∃ output, groupedConv hiddenStates delta base blockSize taps = some output ∧
        output.length = hiddenStates.length ∧
        (∀ row < hiddenStates.length, ∀ c, output.getD row 0 c =
          ∑ tap ∈ Finset.range (min (taps - 1) (row % blockSize) + 1),
            (base tap c + delta row tap c.divNat) * hiddenStates.getD (row - tap) 0 c) ∧
        ∀ hiddenStates' delta' output', taps - 1 ≤ hiddenStates'.length →
          groupedConv hiddenStates' delta' base blockSize taps = some output' →
          ∀ row < hiddenStates.length, row < hiddenStates'.length →
            (∀ tap < taps, delta row tap = delta' row tap) →
            (∀ q ≤ row, row - row % blockSize ≤ q →
              hiddenStates.getD q 0 = hiddenStates'.getD q 0) →
            output.getD row 0 = output'.getD row 0) := by
  refine ⟨fun h0 => by rw [groupedConv, if_pos h0], fun htaps => ?_⟩
  have heq := groupedConv_eq hiddenStates delta base hblock htaps hrows
  refine ⟨_, heq, List.length_mapIdx, fun row h c => by rw [getD_mapIdx _ _ h, convRow], ?_⟩
  intro hiddenStates' delta' output' hrows' heq' row h h' hdelta hsame
  exact groupedConv_congr hblock hrows hrows' heq heq' h h' hdelta hsame

/-- Three taps over blocks of three rows, the last of them ragged. -/
theorem groupedConv_row_ragged : ∃ output, groupedConv
    (List.replicate 4 (fun _ : Fin (1 * 1) => (1 : ℤ)))
    (fun _ _ _ => 1) (fun _ _ => 0) 3 3 = some output ∧ output.length = 4 := by
  obtain ⟨output, heq, hlen, -⟩ :=
    (groupedConv_row (List.replicate 4 (fun _ : Fin (1 * 1) => (1 : ℤ)))
    (fun _ _ _ => 1) (fun _ _ => 0) 3 (by decide : 1 ≤ 3) (by decide)).2 (by decide)
  exact ⟨output, heq, hlen⟩

/-! ### The module -/

/-- A `DFlashGroupedConv`. -/
structure GroupedConv (K : Type*) (numGroups groupSize : ℕ) where
  blockSize : ℕ
  taps : ℕ
  /-- `base_kernel`, by side and tap. -/
  baseKernel : ℕ → ℕ → Channels K numGroups groupSize
  /-- `kernel_projection`, which maps every row by itself. -/
  kernelProjection : Channels K numGroups groupSize → ℕ → K

variable (m : GroupedConv K numGroups groupSize)

/-- `_convolve(hidden_states, delta, side)`. -/
def GroupedConv.convolve (hiddenStates : List (Channels K numGroups groupSize))
    (delta : ℕ → ℕ → Fin numGroups → K) (side : ℕ) :
    Option (List (Channels K numGroups groupSize)) :=
  groupedConv hiddenStates delta (m.baseKernel side) m.blockSize m.taps

/-- `self.kernel_projection(hidden_states)`, reshaped to the two sides, the taps and the groups. -/
def GroupedConv.coefficients (hiddenStates : List (Channels K numGroups groupSize))
    (side row tap : ℕ)
    (g : Fin numGroups) : K :=
  m.kernelProjection (hiddenStates.getD row 0) ((side * m.taps + tap) * numGroups + g)

/-- `prepare(hidden_states)`. -/
def GroupedConv.prepare (hiddenStates : List (Channels K numGroups groupSize)) :
    Option (List (Channels K numGroups groupSize) × (ℕ → ℕ → Fin numGroups → K)) :=
  (m.convolve hiddenStates (m.coefficients hiddenStates 0) 0).map fun output =>
    (output, m.coefficients hiddenStates 1)

/-- `finish(hidden_states, coefficients)`. -/
def GroupedConv.finish (hiddenStates : List (Channels K numGroups groupSize))
    (coefficients : ℕ → ℕ → Fin numGroups → K) : Option (List (Channels K numGroups groupSize)) :=
  m.convolve hiddenStates coefficients 1

/-- `prepare` does not mix blocks, with the coefficients that it computes. -/
theorem prepare_row {hiddenStates hiddenStates' : List (Channels K numGroups groupSize)}
    {prepared prepared' : List (Channels K numGroups groupSize) × (ℕ → ℕ → Fin numGroups → K)}
    {row : ℕ}
    (hblock : 1 ≤ m.blockSize) (hrows : m.taps - 1 ≤ hiddenStates.length)
    (hrows' : m.taps - 1 ≤ hiddenStates'.length) (h : m.prepare hiddenStates = some prepared)
    (h' : m.prepare hiddenStates' = some prepared')
    (hrow : row < hiddenStates.length) (hrow' : row < hiddenStates'.length)
    (hsame : ∀ q ≤ row, row - row % m.blockSize ≤ q →
      hiddenStates.getD q 0 = hiddenStates'.getD q 0) :
    prepared.1.getD row 0 = prepared'.1.getD row 0 ∧ prepared.2 row = prepared'.2 row := by
  obtain ⟨output, hout, rfl⟩ := Option.map_eq_some_iff.mp h
  obtain ⟨output', hout', rfl⟩ := Option.map_eq_some_iff.mp h'
  have hcoefficients : ∀ side, m.coefficients hiddenStates side row =
      m.coefficients hiddenStates' side row := by
    intro side
    funext tap g
    rw [GroupedConv.coefficients, GroupedConv.coefficients, hsame row le_rfl (Nat.sub_le _ _)]
  exact ⟨groupedConv_congr hblock hrows hrows' hout hout' hrow hrow'
    (fun tap _ => by rw [hcoefficients]) hsame,
    hcoefficients 1⟩

/-- Nor does `finish`, with the coefficients of the row. -/
theorem finish_row {hiddenStates hiddenStates' output output' :
    List (Channels K numGroups groupSize)}
    {coefficients coefficients' : ℕ → ℕ → Fin numGroups → K} {row : ℕ}
    (hblock : 1 ≤ m.blockSize) (hrows : m.taps - 1 ≤ hiddenStates.length)
    (hrows' : m.taps - 1 ≤ hiddenStates'.length)
    (h : m.finish hiddenStates coefficients = some output)
    (h' : m.finish hiddenStates' coefficients' = some output')
    (hrow : row < hiddenStates.length) (hrow' : row < hiddenStates'.length)
    (hcoefficients : coefficients row = coefficients' row)
    (hsame : ∀ q ≤ row, row - row % m.blockSize ≤ q →
      hiddenStates.getD q 0 = hiddenStates'.getD q 0) :
    output.getD row 0 = output'.getD row 0 :=
  groupedConv_congr hblock hrows hrows' h h' hrow hrow' (fun _ _ => by rw [hcoefficients]) hsame

end Glm53Serve.Dflash
