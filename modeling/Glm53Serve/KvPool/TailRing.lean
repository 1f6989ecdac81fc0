import Glm53Serve.Lib.MapM
import Glm53Serve.Lib.Ring
import Mathlib.Data.Int.ModEq

/-!
# The tail group of the K-pool

The tail of the K-pool is a scratch of one block for each request, addressed round and round. The
row of its block table has one entry, and the generic slot mapping reads past it from the second
block on; the patch clamps the index. `circular_slot_ids` is the mapping with and without the clamp,
and `count_overruns` counts what the mapping without it reads past the row.

## The model

Positions, blocks and sizes are integers, and a negative index reads a row from its end. `seed` is
what the mapping is for: the next tokens of a request are written to their slots. The batches of any
requests may come in any order.

## What is proved

* `circularSlotIds_clamp_iff` — the clamp changes nothing exactly where no position overruns the
  row.
* `tail_ring` — with it every request has its last tokens in its block; without it the seeds fail
  where a request outgrows its block.
-/

namespace Glm53Serve.KvPool

/-- What the mapping raises. -/
inductive SlotError where
  | valueError (text : String)
  | zeroDivision
  | indexError (text : String)
  deriving DecidableEq, Repr

/-- `count_overruns(positions, block_size, stride)`. -/
def countOverruns (positions : List ℤ) (blockSize stride : ℤ) : Except SlotError ℕ :=
  if blockSize < 1 ∨ stride < 1 then .error (.valueError "block_size and stride must be >= 1")
  else .ok (positions.countP fun pos => stride ≤ pos.fdiv blockSize)

/-- `row[idx]`. -/
def rowItem (row : List ℤ) (idx : ℤ) : Option ℤ :=
  if 0 ≤ idx then row[idx.toNat]?
  else if 0 ≤ idx + row.length then row[(idx + row.length).toNat]?
  else none

/-- The body of the loop of `circular_slot_ids`. -/
def slotId (row : List ℤ) (blockSize : ℤ) (clamp : Bool) (pos : ℤ) : Except SlotError ℤ :=
  if blockSize = 0 then .error .zeroDivision
  else
    let stride : ℤ := row.length
    let idx := pos.fdiv blockSize
    if !clamp ∧ (idx < 0 ∨ stride ≤ idx) then
      .error (.indexError s!"pos={pos} indexes block {idx} past stride {stride}")
    else
      match rowItem row (if clamp then min idx (stride - 1) else idx) with
      | none => .error (.indexError "list index out of range")
      | some block => .ok (block * blockSize + pos.fmod blockSize)

/-- `circular_slot_ids(positions, block_table_row, block_size, clamp)`. -/
def circularSlotIds (positions row : List ℤ) (blockSize : ℤ) (clamp : Bool) :
    Except SlotError (List ℤ) :=
  if row = [] then .error (.valueError "block_table_row must be non-empty")
  else positions.mapM (slotId row blockSize clamp)

/-! ### A slot -/

variable {row positions : List ℤ} {blockSize : ℤ}

/-- The slot of a position with the clamp: past the row, its last block. -/
def clampedSlot (row : List ℤ) (blockSize pos : ℤ) : ℤ :=
  row.getD (min (pos / blockSize).toNat (row.length - 1)) 0 * blockSize + pos % blockSize

/-- What a position that overruns the row raises without the clamp. -/
def overrun (row : List ℤ) (blockSize pos : ℤ) : SlotError :=
  .indexError s!"pos={pos} indexes block {pos / blockSize} past stride {(row.length : ℤ)}"

theorem slotId_clamp (hrow : row ≠ []) (hsize : 1 ≤ blockSize) {pos : ℤ} (hpos : 0 ≤ pos) :
    slotId row blockSize true pos = .ok (clampedSlot row blockSize pos) := by
  have hlen : 0 < row.length := List.length_pos_iff.mpr hrow
  have hidx : 0 ≤ pos / blockSize := Int.ediv_nonneg hpos (by omega)
  have hmin : 0 ≤ min (pos / blockSize) ((row.length : ℤ) - 1) := le_min hidx (by omega)
  have hnat : (min (pos / blockSize) ((row.length : ℤ) - 1)).toNat
      = min (pos / blockSize).toNat (row.length - 1) := by omega
  have hlt : min (pos / blockSize).toNat (row.length - 1) < row.length := by omega
  rw [slotId, if_neg (by omega), if_neg (by simp), if_pos rfl,
    Int.fdiv_eq_ediv_of_nonneg _ (by omega),
    Int.fmod_eq_emod_of_nonneg _ (by omega), rowItem, if_pos hmin, hnat,
    List.getElem?_eq_getElem hlt,
    clampedSlot, List.getD_eq_getElem?_getD, List.getElem?_eq_getElem hlt]
  rfl

theorem slotId_unclamped (hsize : 1 ≤ blockSize) {pos : ℤ} (hpos : 0 ≤ pos) :
    slotId row blockSize false pos =
      if (row.length : ℤ) ≤ pos / blockSize then .error (overrun row blockSize pos)
      else slotId row blockSize true pos := by
  have hidx : 0 ≤ pos / blockSize := Int.ediv_nonneg hpos (by omega)
  simp only [slotId, Int.fdiv_eq_ediv_of_nonneg _ (show 0 ≤ blockSize by omega)]
  rw [if_neg (show blockSize ≠ 0 by omega), if_neg (show blockSize ≠ 0 by omega)]
  by_cases hover : (row.length : ℤ) ≤ pos / blockSize
  · rw [if_pos ⟨rfl, .inr hover⟩, if_pos hover]
    rfl
  · have hmin : min (pos / blockSize) ((row.length : ℤ) - 1) = pos / blockSize := by omega
    rw [if_neg (by simp [hidx, hover]), if_neg hover]
    simp [hmin]

/-! ### The mapping -/

theorem circularSlotIds_clamp (hrow : row ≠ []) (hsize : 1 ≤ blockSize)
    (hpos : ∀ pos ∈ positions, 0 ≤ pos) :
    circularSlotIds positions row blockSize true =
      .ok (positions.map (clampedSlot row blockSize)) := by
  rw [circularSlotIds, if_neg hrow]
  exact Except.mapM_eq_map fun pos h => slotId_clamp hrow hsize (hpos pos h)

/-- Without the clamp the first position that overruns the row is named. -/
theorem circularSlotIds_unclamped (hrow : row ≠ []) (hsize : 1 ≤ blockSize)
    (hpos : ∀ pos ∈ positions, 0 ≤ pos) :
    circularSlotIds positions row blockSize false =
      match positions.find? fun pos => (row.length : ℤ) ≤ pos / blockSize with
      | none => .ok (positions.map (clampedSlot row blockSize))
      | some pos => .error (overrun row blockSize pos) := by
  rw [circularSlotIds, if_neg hrow]
  induction positions with
  | nil => rfl
  | cons pos positions ih =>
    obtain ⟨hp, hps⟩ := List.forall_mem_cons.mp hpos
    rw [List.mapM_cons, slotId_unclamped hsize hp, List.find?_cons]
    by_cases hover : (row.length : ℤ) ≤ pos / blockSize
    · rw [if_pos hover, decide_eq_true hover]
      rfl
    · rw [if_neg hover, decide_eq_false hover, slotId_clamp hrow hsize hp, ih hps]
      cases positions.find? fun pos => (row.length : ℤ) ≤ pos / blockSize <;> rfl

theorem countOverruns_eq (hrow : row ≠ []) (hsize : 1 ≤ blockSize) :
    countOverruns positions blockSize row.length
      = .ok (positions.countP fun pos => (row.length : ℤ) ≤ pos / blockSize) := by
  have hlen : 0 < row.length := List.length_pos_iff.mpr hrow
  rw [countOverruns, if_neg (by omega)]
  simp only [Int.fdiv_eq_ediv_of_nonneg _ (show 0 ≤ blockSize by omega)]

/-- The clamp changes nothing exactly where no position overruns the row. -/
theorem circularSlotIds_clamp_iff (hrow : row ≠ []) (hsize : 1 ≤ blockSize)
    (hpos : ∀ pos ∈ positions, 0 ≤ pos) :
    circularSlotIds positions row blockSize false = circularSlotIds positions row blockSize true ↔
      countOverruns positions blockSize row.length = .ok 0 := by
  rw [circularSlotIds_clamp hrow hsize hpos, circularSlotIds_unclamped hrow hsize hpos,
    countOverruns_eq hrow hsize,
    Except.ok.injEq, List.countP_eq_zero]
  cases hfind : positions.find? fun pos => (row.length : ℤ) ≤ pos / blockSize with
  | none => exact iff_of_true rfl (List.find?_eq_none.mp hfind)
  | some pos =>
    have hfound := List.find?_some hfind
    exact iff_of_false (fun h => by cases h) fun h => h pos (List.mem_of_find?_eq_some hfind) hfound

/-! ### The scratch -/

section Scratch

variable {ι τ : Type} [DecidableEq ι]

/-- The requests with their tokens so far, and the memory of the tail group. -/
structure Scratch (ι τ : Type) where
  tokens : ι → List τ
  memory : ℤ → τ

/-- The next tokens of a request are mapped by the one entry of its row, and written. -/
def Scratch.seed (block : ι → ℤ) (blockSize : ℤ) (clamp : Bool) (s : Scratch ι τ)
    (batch : ι × List τ) :
    Except SlotError (Scratch ι τ) := do
  let positions := (List.range' (s.tokens batch.1).length batch.2.length).map Nat.cast
  let slots ← circularSlotIds positions [block batch.1] blockSize clamp
  return { tokens := Function.update s.tokens batch.1 (s.tokens batch.1 ++ batch.2)
           memory := Ring.writes s.memory (slots.zip batch.2) }

/-- The seeds of a run. -/
def Scratch.run (block : ι → ℤ) (blockSize : ℤ) (clamp : Bool) (s : Scratch ι τ)
    (batches : List (ι × List τ)) :
    Except SlotError (Scratch ι τ) :=
  batches.foldlM (Scratch.seed block blockSize clamp) s

/-- The tokens that a run seeds for a request. -/
def seeded (batches : List (ι × List τ)) (i : ι) : List τ :=
  (batches.filter fun batch => batch.1 = i).flatMap Prod.snd

/-- The slot of the token `p` of a request. -/
def tailSlot (block : ι → ℤ) (size : ℕ) (i : ι) (p : ℕ) : ℤ := block i * size + (p % size : ℕ)

variable {block : ι → ℤ} {size : ℕ} {s : Scratch ι τ}

omit [DecidableEq ι] in
theorem separates_tailSlot (hsize : 1 ≤ size) (hblock : Function.Injective block) :
    Ring.Separates (tailSlot block size) size := by
  intro i j p q h
  have hp : ((p % size : ℕ) : ℤ) < size := by exact_mod_cast Nat.mod_lt p hsize
  have hq : ((q % size : ℕ) : ℤ) < size := by exact_mod_cast Nat.mod_lt q hsize
  have hdiv : ∀ k : ι, ∀ r : ℕ, (r : ℤ) < size →
      (block k * size + r) / size = block k ∧ (block k * size + r) % size = r :=
    fun k r hr => (Int.ediv_emod_unique (by omega)).mpr
      ⟨by rw [Int.mul_comm, Int.add_comm], by omega, hr⟩
  obtain ⟨hi, hip⟩ := hdiv i _ hp
  obtain ⟨hj, hjq⟩ := hdiv j _ hq
  rw [tailSlot, tailSlot] at h
  rw [h] at hi hip
  exact ⟨hblock (hi.symm.trans hj), by exact_mod_cast hip.symm.trans hjq⟩

omit [DecidableEq ι] in
theorem clampedSlot_tail (i : ι) (p : ℕ) :
    clampedSlot [block i] size p = tailSlot block size i p := by
  rw [clampedSlot, tailSlot, List.length_singleton, Nat.sub_self, Nat.min_zero]
  simp

theorem cast_nonneg {l : List ℕ} : ∀ pos ∈ l.map (Nat.cast : ℕ → ℤ), 0 ≤ pos := by
  intro pos h
  obtain ⟨p, -, rfl⟩ := List.mem_map.mp h
  exact Int.natCast_nonneg p

/-- The tokens of a batch go round in the block of their request. -/
def Scratch.turn (block : ι → ℤ) (size : ℕ) (s : Scratch ι τ) (batch : ι × List τ) :
    Scratch ι τ where
  tokens := Function.update s.tokens batch.1 (s.tokens batch.1 ++ batch.2)
  memory := Ring.writes s.memory
    (Ring.placed (tailSlot block size batch.1) (s.tokens batch.1).length batch.2)

theorem turn_tokens (s : Scratch ι τ) (batch : ι × List τ) :
    (s.turn block size batch).tokens = Function.update s.tokens batch.1
      (s.tokens batch.1 ++ batch.2) := rfl

theorem seed_clamp (hsize : 1 ≤ size) (s : Scratch ι τ) (batch : ι × List τ) :
    s.seed block size true batch = .ok (s.turn block size batch) := by
  rw [Scratch.seed, circularSlotIds_clamp (by simp) (by omega) cast_nonneg, List.map_map]
  simp only [Function.comp_def, clampedSlot_tail]
  rw [Scratch.turn, Ring.placed_eq_zip]
  rfl

/-- Without it a seed fails where its request outgrows the block. -/
theorem seed_unclamped (block : ι → ℤ) (hsize : 1 ≤ size) (s : Scratch ι τ) (batch : ι × List τ)
    (hfits : (s.tokens batch.1).length ≤ size) :
    ((s.tokens batch.1 ++ batch.2).length ≤ size →
      s.seed block size false batch = s.seed block size true batch) ∧
      (size < (s.tokens batch.1 ++ batch.2).length →
        ∃ text, s.seed block size false batch = .error (.indexError text)) := by
  have hover : ∀ p : ℕ, (([block batch.1].length : ℕ) : ℤ) ≤ (p : ℤ) / size ↔
      size ≤ p := fun p => by
    rw [List.length_singleton, Int.le_ediv_iff_mul_le (by omega)]
    omega
  rw [List.length_append]
  constructor
  · intro hlen
    have hcount : countOverruns
      ((List.range' (s.tokens batch.1).length batch.2.length).map Nat.cast) size
        ([block batch.1].length : ℕ) = .ok 0 := by
      rw [countOverruns_eq (by simp) (by omega), Except.ok.injEq, List.countP_eq_zero]
      intro pos hpos
      obtain ⟨p, hp, rfl⟩ := List.mem_map.mp hpos
      rw [decide_eq_true_iff, hover]
      have := List.mem_range'_1.mp hp
      omega
    rw [Scratch.seed, Scratch.seed,
      (circularSlotIds_clamp_iff (by simp) (by omega) cast_nonneg).mpr hcount]
  · intro hlen
    rw [Scratch.seed, circularSlotIds_unclamped (by simp) (by omega) cast_nonneg]
    cases hfind : ((List.range' (s.tokens batch.1).length batch.2.length).map
      (Nat.cast : ℕ → ℤ)).find?
        fun pos => (([block batch.1].length : ℕ) : ℤ) ≤ pos / size with
    | some pos => exact ⟨_, rfl⟩
    | none =>
      have hlast := List.find?_eq_none.mp hfind _ (List.mem_map_of_mem
        (List.mem_range'_1.mpr ⟨hfits, hlen⟩))
      rw [decide_eq_true_iff, hover] at hlast
      exact absurd le_rfl hlast

/-! ### The runs -/

theorem turn_seeded (block : ι → ℤ) (size : ℕ) (s : Scratch ι τ) (batch : ι × List τ)
    (batches : List (ι × List τ)) (i : ι) :
    (s.turn block size batch).tokens i ++ seeded batches i = s.tokens i ++
      seeded (batch :: batches) i := by
  rw [turn_tokens]
  by_cases hi : batch.1 = i
  · subst hi
    simp [seeded]
  · rw [Function.update_of_ne (Ne.symm hi)]
    simp [seeded, hi]

/-- The block of a request. -/
def InBlock (block : ι → ℤ) (size : ℕ) (i : ι) (a : ℤ) : Prop := ∃ p, tailSlot block size i p = a

/-- What a run with the clamp leaves. -/
theorem run_clamp (hsize : 1 ≤ size) (hblock : Function.Injective block) {s : Scratch ι τ}
    (hs : Ring.Holds (tailSlot block size) size s.tokens s.memory) (batches : List (ι × List τ)) :
    ∃ s', s.run block size true batches = .ok s' ∧
      (∀ i, s'.tokens i = s.tokens i ++ seeded batches i) ∧
      Ring.Holds (tailSlot block size) size s'.tokens s'.memory ∧
      ∀ a, (∀ batch ∈ batches, ¬InBlock block size batch.1 a) → s'.memory a = s.memory a := by
  induction batches generalizing s with
  | nil => exact ⟨s, rfl, fun i => (List.append_nil _).symm, hs, fun a _ => rfl⟩
  | cons batch batches ih =>
    have hturn : Ring.Holds (tailSlot block size) size (s.turn block size batch).tokens
        (s.turn block size batch).memory :=
      hs.writes (separates_tailSlot hsize hblock) batch.1 batch.2
    obtain ⟨s', hrun, htokens, hholds, hframe⟩ := ih hturn
    refine ⟨s', ?_, fun i => (htokens i).trans (turn_seeded block size s batch batches i), hholds,
      fun a ha => ?_⟩
    · rw [Scratch.run, List.foldlM_cons, seed_clamp hsize]
      exact hrun
    · obtain ⟨hbatch, hbatches⟩ := List.forall_mem_cons.mp ha
      rw [hframe a hbatches]
      refine Ring.writes_of_forall_ne (fun w hw heq => ?_) _
      obtain ⟨q, hq⟩ := Ring.exists_slot_of_mem_placed hw
      exact hbatch ⟨q, hq.trans heq⟩

/-- What a run without it does. -/
theorem run_unclamped (block : ι → ℤ) (hsize : 1 ≤ size) {s : Scratch ι τ}
    (hs : ∀ i, (s.tokens i).length ≤ size)
    (batches : List (ι × List τ)) :
    ((∀ i, (s.tokens i ++ seeded batches i).length ≤ size) →
        s.run block size false batches = s.run block size true batches) ∧
      ((∃ i, size < (s.tokens i ++ seeded batches i).length) →
        ∃ text, s.run block size false batches = .error (.indexError text)) := by
  induction batches generalizing s with
  | nil =>
    refine ⟨fun _ => rfl, ?_⟩
    rintro ⟨i, hi⟩
    rw [show s.tokens i ++ seeded [] i = s.tokens i from List.append_nil _] at hi
    exact absurd (hs i) (not_le.mpr hi)
  | cons batch batches ih =>
    obtain ⟨hsame, hfails⟩ := seed_unclamped block hsize s batch (hs batch.1)
    simp only [Scratch.run, List.foldlM_cons]
    by_cases hfits : (s.tokens batch.1 ++ batch.2).length ≤ size
    · have hturn : ∀ i, ((s.turn block size batch).tokens i).length ≤ size := by
        intro i
        rw [turn_tokens]
        by_cases hi : i = batch.1
        · rw [hi, Function.update_self]
          exact hfits
        · rw [Function.update_of_ne hi]
          exact hs i
      have hrest := ih hturn
      simp only [turn_seeded] at hrest
      rw [hsame hfits, seed_clamp hsize]
      exact hrest
    · obtain ⟨text, htext⟩ := hfails (not_le.mp hfits)
      rw [htext]
      refine ⟨fun h => absurd (h batch.1) ?_, fun _ => ⟨text, rfl⟩⟩
      rw [← turn_seeded block size, turn_tokens, Function.update_self, List.length_append]
      omega

/-- **The tail group as a ring.** Where every request has a block of its own, any batches of any
requests in any order are mapped with the clamp, each request then has its last tokens in its block,
and no other memory is written. Without the clamp the same run fails exactly where some request has
more tokens than a block, and else leaves the same. -/
theorem tail_ring (hsize : 1 ≤ size) (hblock : Function.Injective block) (memory : ℤ → τ)
    (batches : List (ι × List τ)) :
    let s : Scratch ι τ := ⟨fun _ => [], memory⟩
    ∃ s', s.run block size true batches = .ok s' ∧ (∀ i, s'.tokens i = seeded batches i) ∧
      (∀ i p v, (seeded batches i).length ≤ p + size → (seeded batches i)[p]? = some v →
        s'.memory (tailSlot block size i p) = v) ∧
      (∀ a, (∀ batch ∈ batches, ¬InBlock block size batch.1 a) → s'.memory a = memory a) ∧
      ((∀ i, (seeded batches i).length ≤ size) → s.run block size false batches = .ok s') ∧
      ((∃ i, size < (seeded batches i).length) →
        ∃ text, s.run block size false batches = .error (.indexError text)) := by
  intro s
  have hs : Ring.Holds (tailSlot block size) size s.tokens s.memory := fun i p v _ hv => by cases hv
  obtain ⟨s', hrun, htokens, hholds, hframe⟩ := run_clamp hsize hblock hs batches
  have hempty : ∀ i, (s.tokens i).length ≤ size := fun i => Nat.zero_le _
  obtain ⟨hsame, hfails⟩ := run_unclamped block hsize hempty batches
  have htokens : ∀ i, s'.tokens i = seeded batches i := htokens
  refine ⟨s', hrun, htokens, fun i p v hp hv => hholds i p v ?_ ?_, hframe, fun h =>
    (hsame h).trans hrun, hfails⟩
  · rwa [htokens]
  · rwa [htokens]

end Scratch

/-- Blocks behind the first 17. -/
def laterBlock (i : ℕ) : ℤ := 17 + i

theorem laterBlock_injective : Function.Injective laterBlock := fun i j h => by
  rw [laterBlock, laterBlock] at h
  omega

/-- Two requests with blocks of four: the first goes round, and is refused without the clamp. -/
theorem tail_ring_two : ∃ s', Scratch.run laterBlock 4 true ⟨fun _ => [], fun _ => 0⟩
      [(0, [1, 2, 3]), (1, [9]), (0, [4, 5])] = .ok s' ∧
    s'.memory (17 * 4) = 5 ∧ s'.memory (17 * 4 + 1) = 2 ∧ s'.memory (18 * 4) = 9 ∧
    ∃ text, Scratch.run laterBlock 4 false ⟨fun _ => [], fun _ => 0⟩
      [(0, [1, 2, 3]), (1, [9]), (0, [4, 5])]
      = .error (.indexError text) := by
  have hsize : 1 ≤ 4 := by decide
  obtain ⟨s', hrun, -, hholds, -, -, hfails⟩ :=
    tail_ring hsize laterBlock_injective (fun _ => 0) [(0, [1, 2, 3]), (1, [9]), (0, [4, 5])]
  exact ⟨s', hrun, hholds 0 4 5 (by decide) rfl, hholds 0 1 2 (by decide) rfl,
    hholds 1 0 9 (by decide) rfl,
    hfails ⟨0, by decide⟩⟩

end Glm53Serve.KvPool
