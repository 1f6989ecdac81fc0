import Glm53Serve.Lib.AsyncThreads
import Mathlib

/-!
# The k-loops of the fat GEMM

The k-loops of `overlay/exl3_fat_gemm.cu`, which has one buffer for the tiles of a k block, and
of `overlay/exl3_fat_gemm_pipe.cu`, which copies the next tiles into one of three stages while it
computes.

## The model

The 256 threads run their programs on the shared memory with asynchronous copies and barriers of
`Lib.AsyncThreads`. The memory is cells of 16 bytes (`int4`), by stage, tile and index; the matrix
`a` and the packed weights are read 16 bytes at a time too. `dq_dispatch` reads the packed words of
the warp; `ldsm4` reads for a thread the row whose address it gives. `dq_dispatch`, `ldsm4` and
`ptx_mma_m16n8k16` are parameters: functions of what the lanes of the warp have read, or hold.

## What is proved

* `WritesTiles` — what a thread has to write of the tiles of a k block; both kernels do.
* `mem_compute`, `tilesRead_eq` — what a thread reads of them.
-/

namespace Glm53Serve.Exl3.FatGemm

open AsyncThreads

/-! ### The kernels -/

/-- A cell of a stage: of the tile of `a` or of the packed words. -/
inductive Cell where
  | a (index : ℕ)
  | b (index : ℕ)
  deriving DecidableEq

/-- A cell of the tiles of a k block. -/
abbrev Address := ℕ × Cell

/-- What a block of threads is launched with. -/
structure Launch (V : Type*) where
  /-- `a`, by row and column of `int4`. -/
  a : ℕ → ℕ → V
  /-- `packed`, by `int4`. -/
  packed : ℕ → V
  mBase : ℕ
  nBase : ℕ
  sizeM : ℕ
  tilesN : ℕ
  /-- `size_k / FAT_TILE_K`. -/
  kBlocks : ℕ

/-- `t`, of `FAT_THREADS`. -/
abbrev Tid := Fin 256

/-- `a_row * 2 + a_dst_col8` of a thread. -/
def aDst (t : ℕ) : ℕ := t / 2 * 2 + ((t &&& 1) ^^^ (((t / 2) >>> 2) &&& 1))

variable {V : Type*} [Zero V] (o : Launch V)

/-- `a_src[a_col8]` of a thread. -/
def aSrc (t k : ℕ) : V := o.a (o.mBase + t / 2) (2 * k + (t &&& 1))

/-- `b_src[t]`. -/
def bSrc (t k : ℕ) : V := o.packed ((k * o.tilesN + o.nBase / 16) * 8 + t)

/-- `issue_stage(k_block, k_block % FAT_STAGES)`. -/
def issueStage (t k : ℕ) : List (Instr Address V) :=
  (if o.mBase + t / 2 < o.sizeM then Instr.copy (k, .a (aDst t)) (aSrc o t k)
    else .store (k, .a (aDst t)) 0) ::
  if t < 64 then [.copy (k, .b t) (bSrc o t k)] else []

/-- The stores of the stock kernel. -/
def storeTiles (t k : ℕ) : List (Instr Address V) :=
  .store (k, .a (aDst t)) (if o.mBase + t / 2 < o.sizeM then aSrc o t k else 0) ::
  if t < 64 then [.store (k, .b t) (bSrc o t k)] else []

/-- The row of `ldsm4` whose address a thread gives. -/
def ldsmRow (t mb : ℕ) : ℕ := t % 32 % 8 + 8 * (t % 32 / 8 % 2) + mb * 16

/-- `row * 2 + swizzled_col`. -/
def ldsmCell (t mb : ℕ) : ℕ :=
  ldsmRow t mb * 2 + ((t % 32 / 16) ^^^ ((ldsmRow t mb >>> 2) &&& 1))

/-- The reads of `compute(k_block)`. -/
def compute (V : Type*) (t k : ℕ) : List (Instr Address V) :=
  ((List.range 8).map fun w => .read (k, .b (t / 32 * 8 + w))) ++
    (List.range 8).map fun mb => .read (k, .a (ldsmCell t mb))

/-- Before the loop. -/
def prologue (t : ℕ) : List (Instr Address V) :=
  if 0 < o.kBlocks then issueStage o t 0 ++ [.commit] else []

/-- A turn of the loop up to `__syncthreads`. -/
def beforeSync (t k : ℕ) : List (Instr Address V) :=
  (if k + 1 < o.kBlocks then issueStage o t (k + 1) else []) ++ [.commit, .wait 1]

/-- A turn of the loop. -/
def pipeTurn (t k : ℕ) : List (Instr Address V) := beforeSync o t k ++ .barrier :: compute V t k

/-- `exl3_fat_gemm_pipe_kernel`, to the end of its k-loop. -/
def pipe (t : Tid) : List (Instr Address V) :=
  prologue o t ++ (List.range o.kBlocks).flatMap (pipeTurn o t)

/-- A turn of the stock loop. -/
def stockTurn (t k : ℕ) : List (Instr Address V) :=
  storeTiles o t k ++ .barrier :: (compute V t k ++ [.barrier])

/-- `exl3_fat_gemm_kernel`, to the end of its k-loop. -/
def stock (t : Tid) : List (Instr Address V) := (List.range o.kBlocks).flatMap (stockTurn o t)

/-- The cell of a stage that an address is kept in. -/
def stageOf (a : Address) : ℕ × Cell := (a.1 % 3, a.2)

/-- The same in the stock kernel, which has one stage. -/
def bufferOf (a : Address) : ℕ × Cell := (0, a.2)

/-! ### The tiles -/

/-- A cell of the tiles of a k block: a row beyond `size_m` is zero. -/
def tile : Address → V
  | (k, .a index) =>
    if o.mBase + index / 2 < o.sizeM then
      o.a (o.mBase + index / 2) (2 * k + ((index &&& 1) ^^^ (((index / 2) >>> 2) &&& 1)))
    else 0
  | (k, .b index) => o.packed ((k * o.tilesN + o.nBase / 16) * 8 + index)

/-- What a thread is to read of the tiles of a k block: the packed words of its warp, and an entry
of each block of rows. -/
def tilesRead (t : Tid) (k : ℕ) : List V :=
  ((List.range 8).map fun w => o.packed ((k * o.tilesN + o.nBase / 16) * 8 + (t / 32 * 8 + w))) ++
    (List.range 8).map fun mb =>
      if o.mBase + ldsmRow t mb < o.sizeM then
        o.a (o.mBase + ldsmRow t mb) (2 * k + t % 32 / 16) else 0

/-- The thread that writes a cell. -/
def writer : ℕ × Cell → Tid
  | (_, .a index) => Fin.ofNat 256 (aDst index)
  | (_, .b index) => Fin.ofNat 256 index

/-- The cells of a stage. -/
def Cell.Valid : Cell → Prop
  | .a index => index < 256
  | .b index => index < 64

/-- The cells that the threads swap are their own again. -/
theorem aDst_facts : ∀ t : Fin 256, aDst t < 256 ∧ aDst (aDst t) = t ∧ aDst t / 2 = t / 2 ∧
    ((aDst t &&& 1) ^^^ (((aDst t / 2) >>> 2) &&& 1)) = (t &&& 1 : ℕ) := by
  decide +kernel

/-- `ldsm4` reads the cell of its row and column. -/
theorem ldsm_facts : ∀ t : Fin 256, ∀ mb : Fin 8, ldsmCell t mb < 256 ∧
    ldsmCell t mb / 2 = ldsmRow t mb ∧
    ((ldsmCell t mb &&& 1) ^^^ (((ldsmCell t mb / 2) >>> 2) &&& 1)) = t % 32 / 16 := by
  decide +kernel

/-! ### What the parts of a turn do -/

variable {o}

/-- A list of instructions that writes what a thread has to write of the tiles of a k block. -/
structure WritesTiles (o : Launch V) (t : Tid) (k : ℕ) (l : List (Instr Address V)) : Prop where
  sound : ∀ x ∈ l, ∀ w ∈ x.writes, w.1.1 = k ∧ w.2 = tile o w.1 ∧ ∀ stage, writer (stage, w.1.2) = t
  complete : ∀ c : Cell, c.Valid → ∀ stage, writer (stage, c) = t →
    ∃ x ∈ l, ((k, c), tile o (k, c)) ∈ x.writes
  distinct : l.Pairwise fun x y => ∀ w ∈ x.writes, ∀ w' ∈ y.writes, w.1.2 ≠ w'.1.2
  noBarrier : barriers l = 0

theorem tile_aDst (t : Tid) (k : ℕ) :
    tile o (k, .a (aDst t)) = if o.mBase + t / 2 < o.sizeM then aSrc o t k else 0 := by
  obtain ⟨-, -, hrow, hcol⟩ := aDst_facts t
  rw [tile, hrow, ← hrow, hcol, hrow, aSrc]

theorem writer_a (t : Tid) (stage : ℕ) : writer (stage, .a (aDst t)) = t := by
  rw [writer, (aDst_facts t).2.1]
  exact Fin.ext (Nat.mod_eq_of_lt t.isLt)

theorem writer_b {t : Tid} (stage : ℕ) : writer (stage, .b t) = t :=
  Fin.ext (Nat.mod_eq_of_lt t.isLt)

theorem aDst_of_writer {t : Tid} {stage index : ℕ} (hlt : index < 256)
    (h : writer (stage, .a index) = t) : aDst t = index := by
  obtain ⟨h1, h2, -⟩ := aDst_facts ⟨index, hlt⟩
  rw [← h, writer, Fin.val_ofNat, Nat.mod_eq_of_lt h1, h2]

theorem eq_of_writer {t : Tid} {stage index : ℕ} (hlt : index < 64)
    (h : writer (stage, .b index) = t) : (t : ℕ) = index := by
  rw [← h, writer, Fin.val_ofNat, Nat.mod_eq_of_lt (by omega)]

theorem writesTiles_storeTiles (t : Tid) (k : ℕ) : WritesTiles o t k (storeTiles o t k) where
  sound := by
    intro x hx w hw
    rcases List.mem_cons.mp hx with rfl | hx
    · obtain rfl := Option.some.inj hw
      exact ⟨rfl, (tile_aDst t k).symm, writer_a t⟩
    · split_ifs at hx with ht
      · obtain rfl := List.mem_singleton.mp hx
        obtain rfl := Option.some.inj hw
        exact ⟨rfl, rfl, writer_b⟩
      · cases hx
  complete := by
    rintro (index | index) hvalid stage hwriter
    · refine ⟨_, List.mem_cons_self, ?_⟩
      rw [← aDst_of_writer hvalid hwriter, tile_aDst]
      rfl
    · have ht : (t : ℕ) = index := eq_of_writer hvalid hwriter
      have hlt : (t : ℕ) < 64 := ht ▸ hvalid
      refine ⟨.store (k, .b t) (bSrc o t k), List.mem_cons_of_mem _ (by simp [hlt]), ?_⟩
      rw [← ht]
      rfl
  distinct := by
    rw [storeTiles]
    split_ifs <;> simp [Instr.writes]
  noBarrier := by
    rw [storeTiles]
    split_ifs <;> rfl

theorem writesTiles_issueStage (t : Tid) (k : ℕ) : WritesTiles o t k (issueStage o t k) where
  sound := by
    intro x hx w hw
    rcases List.mem_cons.mp hx with rfl | hx
    · have htile := tile_aDst (o := o) t k
      split_ifs at hw htile with hrow
      · obtain rfl := Option.some.inj hw
        exact ⟨rfl, htile.symm, writer_a t⟩
      · obtain rfl := Option.some.inj hw
        exact ⟨rfl, htile.symm, writer_a t⟩
    · split_ifs at hx with ht
      · obtain rfl := List.mem_singleton.mp hx
        obtain rfl := Option.some.inj hw
        exact ⟨rfl, rfl, writer_b⟩
      · cases hx
  complete := by
    rintro (index | index) hvalid stage hwriter
    · refine ⟨_, List.mem_cons_self, ?_⟩
      rw [← aDst_of_writer hvalid hwriter, tile_aDst]
      split_ifs <;> rfl
    · have ht : (t : ℕ) = index := eq_of_writer hvalid hwriter
      have hlt : (t : ℕ) < 64 := ht ▸ hvalid
      refine ⟨.copy (k, .b t) (bSrc o t k), List.mem_cons_of_mem _ (by simp [hlt]), ?_⟩
      rw [← ht]
      rfl
  distinct := by
    rw [issueStage]
    split_ifs <;> simp [Instr.writes]
  noBarrier := by
    rw [issueStage]
    split_ifs <;> rfl

omit [Zero V] in
/-- A read of `compute` is of a cell of its block. -/
theorem mem_compute {t : Tid} {k : ℕ} {x : Instr Address V} (hx : x ∈ compute V t k) :
    ∃ c : Cell, c.Valid ∧ x = .read (k, c) := by
  rcases List.mem_append.mp hx with hx | hx
  · obtain ⟨w, hw, rfl⟩ := List.mem_map.mp hx
    have := List.mem_range.mp hw
    exact ⟨.b (t / 32 * 8 + w), by simp only [Cell.Valid]; omega, rfl⟩
  · obtain ⟨mb, hmb, rfl⟩ := List.mem_map.mp hx
    exact ⟨.a (ldsmCell t mb), (ldsm_facts t ⟨mb, List.mem_range.mp hmb⟩).1, rfl⟩

omit [Zero V] in
theorem reads_compute (t : Tid) (k : ℕ) : reads (compute V t k) =
    ((List.range 8).map fun w => (k, Cell.b (t / 32 * 8 + w))) ++
      (List.range 8).map fun mb => (k, Cell.a (ldsmCell t mb)) := by
  rw [compute, reads_append, reads, reads, List.filterMap_map, List.filterMap_map]
  exact congrArg₂ (· ++ ·) (List.filterMap_eq_map' ▸ rfl) (List.filterMap_eq_map' ▸ rfl)

/-- What a thread reads is what it is to read. -/
theorem tilesRead_eq (t : Tid) (k : ℕ) :
    (reads (compute V t k)).map (tile o) = tilesRead o t k := by
  rw [reads_compute, List.map_append, List.map_map, List.map_map, tilesRead]
  refine congrArg₂ (· ++ ·) rfl (List.map_congr_left fun mb hmb => ?_)
  obtain ⟨-, hrow, hcol⟩ := ldsm_facts t ⟨mb, List.mem_range.mp hmb⟩
  simp only at hrow hcol
  rw [Function.comp_apply, tile, hrow, ← hrow, hcol]

omit [Zero V] in
theorem barriers_compute (t : Tid) (k : ℕ) {l : List (Instr Address V)} (h : l ⊆ compute V t k) :
    barriers l = 0 := by
  induction l with
  | nil => rfl
  | cons x l ih =>
    obtain ⟨c, -, rfl⟩ := mem_compute (h List.mem_cons_self)
    exact ih fun y hy => h (List.mem_cons_of_mem _ hy)

/-! ### The fragments -/

/-- The instructions of a warp: on what its lanes have read or hold. -/
structure Warp (V A B C : Type*) where
  /-- `dq_dispatch<4, 1>(warp_b, lane << 3, frag_b0, frag_b1)`. -/
  dqDispatch : List V → ℕ → B × B
  /-- `ldsm4(frag_a, row)`, of the rows of the lanes. -/
  ldsm4 : (ℕ → V) → ℕ → A
  /-- `ptx_mma_m16n8k16(frag_a, frag_b, frag_c)`. -/
  mma : (ℕ → A) → (ℕ → B) → (ℕ → C) → ℕ → C
  /-- `{}`. -/
  zero : C

section

variable {A B C : Type*} (ops : Warp V A B C)

/-- A turn's products of a warp, from what the lanes have read in it: the words first, then an entry
for each block of rows. -/
def turnProducts (cell : ℕ → ℕ → V) (fragC : ℕ → ℕ → C × C) : ℕ → ℕ → C × C :=
  let fragB := fun lane => ops.dqDispatch ((List.range 8).map (cell lane)) (lane <<< 3)
  fun mb lane =>
    let fragA := ops.ldsm4 fun lane => cell lane (8 + mb)
    (ops.mma fragA (fun l => (fragB l).1) (fun l => (fragC mb l).1) lane,
      ops.mma fragA (fun l => (fragB l).2) (fun l => (fragC mb l).2) lane)

/-- `frag_c` of a warp after the loop, by block of rows and lane. -/
def fragments (kBlocks : ℕ) (logs : Tid → List V) (warp : ℕ) : ℕ → ℕ → C × C :=
  (List.range kBlocks).foldl
    (fun fragC k => turnProducts ops
      (fun lane j => (logs (Fin.ofNat 256 (warp * 32 + lane))).getD (k * 16 + j) 0) fragC)
    fun _ _ => (ops.zero, ops.zero)

end

end Glm53Serve.Exl3.FatGemm
