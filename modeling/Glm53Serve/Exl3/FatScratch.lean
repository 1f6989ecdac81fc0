import Glm53Serve.Exl3.FusedMoe
import Glm53Serve.Lib.Run
import Mathlib

/-!
# The scratch buffers of the fat experts

`_fat_scratch` of `exl3.py`: one set of buffers a key, kept from call to call, and replaced by
a larger one where the rows of a call do not fit. Two dictionaries hold the buffers and their
bytes, and three fields of `_EXL3_FAT_DIAG` report them.

## The model

A buffer is its shape and its element type; what it holds is left out. A call that raises
(on a row count in the environment that is no number, or a trellis that is not of three
dimensions) does so before it changes anything, as an allocation that fails does.

## What is proved

* `le_capacity`, `two_pow_capacity` — the rows of an allocation.
* `ScratchState.Inv.step` — what a call or a reset keeps.
* `fatScratch_run` — after any calls and resets, a call returns buffers in which its rows fit,
  reused only for the key they were allocated for, and the fields report the cached bytes.
-/

namespace Glm53Serve.Exl3

/-! ### Buffers -/

/-- The element type of a buffer. -/
inductive ScratchDtype where
  | int16
  | float16
  | float32
  deriving DecidableEq, Repr

/-- `element_size()`. -/
def ScratchDtype.elementSize : ScratchDtype → ℕ
  | .int16 => 2
  | .float16 => 2
  | .float32 => 4

/-- `torch.empty(shape, dtype=dtype, device=device)`. -/
structure Buffer where
  shape : List ℕ
  dtype : ScratchDtype
  device : Py.Text
  deriving DecidableEq

/-- `t.numel() * t.element_size()`. -/
def Buffer.bytes (t : Buffer) : ℕ := t.shape.prod * t.dtype.elementSize

/-- `int(t.shape[0])`. -/
def Buffer.rows (t : Buffer) : ℕ := t.shape.headD 0

structure FatScratch where
  packed13 : Buffer
  svh13 : Buffer
  w13 : Buffer
  w2 : Buffer
  h : Buffer
  h13 : Buffer
  gateUp : Buffer
  act : Buffer
  actH : Buffer
  h2 : Buffer
  down : Buffer
  deriving DecidableEq

namespace FatScratch

/-- `scratch.values()`. -/
def values (sc : FatScratch) : List Buffer :=
  [sc.packed13, sc.svh13, sc.w13, sc.w2, sc.h, sc.h13, sc.gateUp, sc.act, sc.actH, sc.h2, sc.down]

/-- The bytes of all buffers. -/
def bytes (sc : FatScratch) : ℕ := (sc.values.map Buffer.bytes).sum

/-- The buffers that a call slices to its rows. -/
def rowBuffers (sc : FatScratch) : List Buffer :=
  [sc.h, sc.h13, sc.gateUp, sc.act, sc.actH, sc.h2, sc.down]

end FatScratch

/-! ### A call -/

/-- What a call reads of a gate matrix. -/
structure GateShape where
  inFeatures : ℕ
  outFeatures : ℕ
  /-- Bits a weight. -/
  k : ℕ
  /-- The shape of the trellis. -/
  trellis : List ℕ

/-- The arguments of a call, and the environment at the time. -/
structure ScratchCall where
  env : ScratchEnv
  /-- `str(device)`. -/
  device : Py.Text
  rows : ℤ
  gate : GateShape

/-- The key of the cache. -/
structure ScratchKey where
  device : Py.Text
  hidden : ℕ
  intermediate : ℕ
  k : ℕ
  /-- The words of a tile of the trellis. -/
  words : ℕ
  deriving DecidableEq

/-- The dictionaries, and the fields of `_EXL3_FAT_DIAG` on them. -/
structure ScratchState where
  /-- `_FAT_SCRATCH_CACHE` -/
  cache : AList fun _ : ScratchKey => FatScratch
  /-- `_FAT_SCRATCH_BYTES` -/
  cacheBytes : AList fun _ : ScratchKey => ℕ
  /-- `fat_scratch_allocs` -/
  allocs : ℕ
  /-- `fat_scratch_bytes` -/
  bytes : ℕ
  /-- `fat_scratch_peak_bytes` -/
  peakBytes : ℕ

/-- What a call raises. -/
inductive ScratchErr where
  | valueError
  | indexError
  deriving DecidableEq, Repr

namespace ScratchCall

/-- `configured`, in the environment of the call. -/
def configured (c : ScratchCall) : Option ℤ := c.env.configured

/-- `needed`. -/
def needed (rows configured : ℤ) : ℤ := max (max 256 rows) configured

/-- `1 << (needed - 1).bit_length()`. -/
def capacity (needed : ℤ) : ℕ := 1 <<< (needed - 1).toNat.size

/-- The key, of a trellis with the last dimension `words`. -/
def key (c : ScratchCall) (words : ℕ) : ScratchKey where
  device := c.device
  hidden := c.gate.inFeatures
  intermediate := c.gate.outFeatures
  k := c.gate.k
  words := words

/-- The buffers of an allocation. -/
def empty (c : ScratchCall) (inTiles outTiles kWords capacity : ℕ) : FatScratch :=
  let hidden := c.gate.inFeatures
  let intermediate := c.gate.outFeatures
  { packed13 := ⟨[inTiles, 2 * outTiles, kWords], .int16, c.device⟩
    svh13 := ⟨[2 * intermediate], .float16, c.device⟩
    w13 := ⟨[hidden, 2 * intermediate], .float16, c.device⟩
    w2 := ⟨[intermediate, hidden], .float16, c.device⟩
    h := ⟨[capacity, hidden], .float16, c.device⟩
    h13 := ⟨[capacity, hidden], .float16, c.device⟩
    gateUp := ⟨[capacity, 2 * intermediate], .float32, c.device⟩
    act := ⟨[capacity, intermediate], .float32, c.device⟩
    actH := ⟨[capacity, intermediate], .float16, c.device⟩
    h2 := ⟨[capacity, intermediate], .float16, c.device⟩
    down := ⟨[capacity, hidden], .float32, c.device⟩ }

end ScratchCall

namespace ScratchState

/-- `sum(_FAT_SCRATCH_BYTES.values())`. -/
def sumBytes (s : ScratchState) : ℕ := (s.cacheBytes.entries.map Sigma.snd).sum

/-- The module is loaded. -/
def initial : ScratchState where
  cache := ∅
  cacheBytes := ∅
  allocs := 0
  bytes := 0
  peakBytes := 0

/-- The scratch fields of `reset_exl3_fat_diag_counters`. -/
def resetCounters (s : ScratchState) : ScratchState :=
  { s with
    allocs := 0
    bytes := s.sumBytes
    peakBytes := s.sumBytes }

/-- A new scratch is cached and reported. -/
def store (s : ScratchState) (key : ScratchKey) (sc : FatScratch) : ScratchState :=
  let s := { s with
    cache := s.cache.insert key sc
    cacheBytes := s.cacheBytes.insert key sc.bytes
    allocs := s.allocs + 1 }
  let s := { s with bytes := s.sumBytes }
  if s.bytes > s.peakBytes then { s with peakBytes := s.bytes } else s

end ScratchState

/-- `_fat_scratch`. -/
def fatScratch (c : ScratchCall) (s : ScratchState) :
    Except ScratchErr (FatScratch × ScratchState) :=
  match c.configured with
  | none => .error .valueError
  | some configured =>
    let capacity := ScratchCall.capacity (ScratchCall.needed c.rows configured)
    match c.gate.trellis.getLast? with
    | none => .error .indexError
    | some words =>
      let key := c.key words
      match s.cache.lookup key with
      | some scratch =>
        if (scratch.h.rows : ℤ) ≥ c.rows then .ok (scratch, s) else allocate capacity key
      | none => allocate capacity key
where
  /-- The end of the function, where nothing is reused. -/
  allocate (capacity : ℕ) (key : ScratchKey) : Except ScratchErr (FatScratch × ScratchState) :=
    match c.gate.trellis with
    | [inTiles, outTiles, kWords] =>
      let scratch := c.empty inTiles outTiles kWords capacity
      .ok (scratch, s.store key scratch)
    | _ => .error .valueError

/-- The key of a call; `none` where the trellis has no dimension. -/
def ScratchCall.key? (c : ScratchCall) : Option ScratchKey := c.gate.trellis.getLast?.map c.key

/-- A call that returns was served from the cache, or allocated. -/
theorem fatScratch_ok {c : ScratchCall} {s s' : ScratchState} {sc : FatScratch}
    (h : fatScratch c s = .ok (sc, s')) : ∃ key, c.key? = some key ∧
      ((s.cache.lookup key = some sc ∧ c.rows ≤ sc.h.rows ∧ s' = s) ∨
        ∃ configured inTiles outTiles kWords,
          sc = c.empty inTiles outTiles kWords
            (ScratchCall.capacity (ScratchCall.needed c.rows configured)) ∧
          s' = s.store key sc) := by
  have halloc : ∀ capacity key, fatScratch.allocate c s capacity key = .ok (sc, s') →
      ∃ inTiles outTiles kWords, sc = c.empty inTiles outTiles kWords capacity ∧
        s' = s.store key sc := by
    intro capacity key h
    rw [fatScratch.allocate] at h
    split at h
    · rename_i inTiles outTiles kWords _
      cases h
      exact ⟨inTiles, outTiles, kWords, rfl, rfl⟩
    · cases h
  simp only [fatScratch] at h
  split at h
  · cases h
  rename_i configured _
  split at h
  · cases h
  rename_i words hwords
  refine ⟨c.key words, by rw [ScratchCall.key?, hwords, Option.map_some], ?_⟩
  split at h
  · rename_i scratch hlookup
    split at h
    · rename_i hrows
      cases h
      exact .inl ⟨hlookup, hrows, rfl⟩
    · exact .inr ⟨configured, halloc _ _ h⟩
  · exact .inr ⟨configured, halloc _ _ h⟩

/-! ### The rows of an allocation -/

theorem capacity_eq (needed : ℤ) : ScratchCall.capacity needed = 2 ^ (needed - 1).toNat.size := by
  rw [ScratchCall.capacity, Nat.one_shiftLeft]

theorem le_capacity (needed : ℤ) : needed ≤ ScratchCall.capacity needed := by
  have h := Nat.lt_size_self (needed - 1).toNat
  rw [capacity_eq]
  omega

/-- The buffers that are sliced have the same rows, a power of two and at least 256. -/
def FatScratch.WellSized (sc : FatScratch) : Prop :=
  ∃ m, 256 ≤ 2 ^ m ∧ ∀ t ∈ sc.rowBuffers, t.rows = 2 ^ m

theorem rows_empty (c : ScratchCall) (inTiles outTiles kWords capacity : ℕ) :
    ∀ t ∈ (c.empty inTiles outTiles kWords capacity).rowBuffers, t.rows = capacity := by
  intro t ht
  simp only [ScratchCall.empty, FatScratch.rowBuffers, List.mem_cons, List.not_mem_nil,
    or_false] at ht
  rcases ht with rfl | rfl | rfl | rfl | rfl | rfl | rfl <;> rfl

theorem wellSized_empty (c : ScratchCall) (inTiles outTiles kWords : ℕ) (configured : ℤ) :
    (c.empty inTiles outTiles kWords
      (ScratchCall.capacity (ScratchCall.needed c.rows configured))).WellSized := by
  have hle := le_capacity (ScratchCall.needed c.rows configured)
  have hneeded : 256 ≤ ScratchCall.needed c.rows configured :=
    (le_max_left 256 c.rows).trans (le_max_left _ _)
  rw [capacity_eq] at hle ⊢
  exact ⟨_, by omega, rows_empty c _ _ _ _⟩

/-! ### Runs -/

/-- A call, or a reset of the counters. -/
inductive ScratchEvent where
  | call (c : ScratchCall)
  | reset

namespace ScratchState

/-- The state after an event; a call that raises changes nothing. -/
def step (s : ScratchState) : ScratchEvent → ScratchState
  | .call c =>
    match fatScratch c s with
    | .ok (_, s') => s'
    | .error _ => s
  | .reset => s.resetCounters

/-- A call among the events allocated the scratch for the key. -/
def Allocated (es : List ScratchEvent) (key : ScratchKey) (sc : FatScratch) : Prop :=
  ∃ t c, Run.Occurs step initial es t (.call c) ∧ c.key? = some key ∧
    fatScratch c t = .ok (sc, t.store key sc)

theorem Allocated.append {es : List ScratchEvent} {key : ScratchKey} {sc : FatScratch}
    (h : Allocated es key sc) (es' : List ScratchEvent) : Allocated (es ++ es') key sc := by
  obtain ⟨t, c, hoccurs, hkey, hcall⟩ := h
  exact ⟨t, c, hoccurs.append es', hkey, hcall⟩

/-- What holds of the dictionaries and the fields. -/
structure Inv (s : ScratchState) : Prop where
  cacheBytes : s.cacheBytes.entries = s.cache.entries.map fun e => ⟨e.1, e.2.bytes⟩
  bytes : s.bytes = s.sumBytes
  bytes_le : s.bytes ≤ s.peakBytes
  wellSized : ∀ key sc, s.cache.lookup key = some sc → sc.WellSized

theorem inv_initial : initial.Inv where
  cacheBytes := rfl
  bytes := rfl
  bytes_le := le_rfl
  wellSized _ _ h := by simp [initial] at h

theorem Inv.resetCounters {s : ScratchState} (hs : s.Inv) : s.resetCounters.Inv where
  cacheBytes := hs.cacheBytes
  bytes := rfl
  bytes_le := le_rfl
  wellSized := hs.wellSized

theorem cache_store (s : ScratchState) (key : ScratchKey) (sc : FatScratch) :
    (s.store key sc).cache = s.cache.insert key sc := by
  simp only [store]
  split_ifs <;> rfl

theorem cacheBytes_store (s : ScratchState) (key : ScratchKey) (sc : FatScratch) :
    (s.store key sc).cacheBytes = s.cacheBytes.insert key sc.bytes := by
  simp only [store]
  split_ifs <;> rfl

theorem bytes_store (s : ScratchState) (key : ScratchKey) (sc : FatScratch) :
    (s.store key sc).bytes = (s.store key sc).sumBytes := by
  simp only [store]
  split_ifs <;> rfl

theorem peakBytes_store (s : ScratchState) (key : ScratchKey) (sc : FatScratch) :
    (s.store key sc).peakBytes = max s.peakBytes (s.store key sc).bytes := by
  simp only [store]
  split_ifs with h
  · exact (max_eq_right (le_of_lt h)).symm
  · exact (max_eq_left (not_lt.mp h)).symm

/-- Both dictionaries change at the same key. -/
theorem Inv.store {s : ScratchState} (hs : s.Inv) (key : ScratchKey) {sc : FatScratch}
    (hsc : sc.WellSized) : (s.store key sc).Inv where
  cacheBytes := by
    rw [cache_store, cacheBytes_store, AList.entries_insert, AList.entries_insert, hs.cacheBytes,
      List.kerase, List.eraseP_map]
    rfl
  bytes := bytes_store s key sc
  bytes_le := by
    rw [peakBytes_store]
    exact le_max_right _ _
  wellSized key' sc' h := by
    rw [cache_store] at h
    by_cases hkey : key' = key
    · rw [hkey, AList.lookup_insert, Option.some.injEq] at h
      exact h ▸ hsc
    · rw [AList.lookup_insert_ne hkey] at h
      exact hs.wellSized key' sc' h

/-- What a call or a reset keeps. -/
theorem Inv.step {s : ScratchState} (hs : s.Inv) (e : ScratchEvent) : (s.step e).Inv := by
  cases e with
  | reset => exact hs.resetCounters
  | call c =>
    rw [ScratchState.step]
    split
    · rename_i sc s' hcall
      obtain ⟨key, -, ⟨-, -, rfl⟩ | ⟨configured, _, _, _, rfl, rfl⟩⟩ := fatScratch_ok hcall
      · exact hs
      · exact hs.store key (wellSized_empty c _ _ _ configured)
    · exact hs

theorem inv_run (es : List ScratchEvent) : (Run.run step initial es).Inv :=
  Run.run_invariant Inv (fun _ e hs => hs.step e) inv_initial es

/-- What is cached was allocated for its key. -/
theorem allocated_of_lookup (es : List ScratchEvent) : ∀ key sc,
    (Run.run step initial es).cache.lookup key = some sc → Allocated es key sc := by
  induction es using List.reverseRecOn with
  | nil =>
    intro key sc h
    simp [initial] at h
  | append_singleton es e ih =>
    intro key sc h
    rw [Run.run_append, Run.run_cons, Run.run_nil] at h
    cases e with
    | reset => exact (ih key sc h).append _
    | call c =>
      rw [step] at h
      split at h
      · rename_i sc' s' hcall
        obtain ⟨key', hkey', ⟨-, -, rfl⟩ | ⟨_, _, _, _, -, rfl⟩⟩ := fatScratch_ok hcall
        · exact (ih key sc h).append _
        · rw [cache_store] at h
          by_cases hkey : key = key'
          · rw [hkey, AList.lookup_insert, Option.some.injEq] at h
            subst hkey h
            exact ⟨_, c, Run.occurs_concat _ _ _, hkey', hcall⟩
          · rw [AList.lookup_insert_ne hkey] at h
            exact (ih key sc h).append _
      · exact (ih key sc h).append _

theorem peakBytes_le_call (s : ScratchState) (c : ScratchCall) :
    s.peakBytes ≤ (s.step (.call c)).peakBytes := by
  rw [step]
  split
  · rename_i sc s' hcall
    obtain ⟨key, -, ⟨-, -, rfl⟩ | ⟨_, _, _, _, -, rfl⟩⟩ := fatScratch_ok hcall
    · exact le_rfl
    · rw [peakBytes_store]
      exact le_max_left _ _
  · exact le_rfl

theorem peakBytes_le_calls (s : ScratchState) (cs : List ScratchCall) :
    s.peakBytes ≤ (Run.run step s (cs.map .call)).peakBytes := by
  induction cs generalizing s with
  | nil => exact le_rfl
  | cons c cs ih => exact (peakBytes_le_call s c).trans (ih _)

end ScratchState

/-- **The scratch cache.** After any calls and resets, a call that returns gives buffers in which
its rows fit, of a power of two and at least 256 rows, allocated by it or, where it is served
from the cache, by an earlier call for the same key; `fat_scratch_bytes` is the sum of the
cached scratches' bytes, `fat_scratch_peak_bytes` is at least that, and calls do not lower it. -/
theorem fatScratch_run (es : List ScratchEvent) :
    (∀ c sc s', fatScratch c (Run.run ScratchState.step .initial es) = .ok (sc, s') →
      (∃ m, 256 ≤ 2 ^ m ∧ c.rows ≤ (2 ^ m : ℕ) ∧ ∀ t ∈ sc.rowBuffers, t.rows = 2 ^ m) ∧
      ∃ key, c.key? = some key ∧
        (s' = (Run.run ScratchState.step .initial es).store key sc ∨
          s' = Run.run ScratchState.step .initial es ∧ ScratchState.Allocated es key sc)) ∧
    (Run.run ScratchState.step .initial es).bytes
      = ((Run.run ScratchState.step .initial es).cache.entries.map fun e => e.2.bytes).sum ∧
    (Run.run ScratchState.step .initial es).bytes
      ≤ (Run.run ScratchState.step .initial es).peakBytes ∧
    ∀ cs : List ScratchCall, (Run.run ScratchState.step .initial es).peakBytes
      ≤ (Run.run ScratchState.step (Run.run ScratchState.step .initial es)
          (cs.map .call)).peakBytes := by
  have hinv := ScratchState.inv_run es
  refine ⟨fun c sc s' hcall => ?_, ?_, hinv.bytes_le, fun cs =>
    ScratchState.peakBytes_le_calls _ cs⟩
  · obtain ⟨key, hkey, ⟨hlookup, hrows, rfl⟩ | ⟨configured, _, _, _, rfl, rfl⟩⟩ :=
      fatScratch_ok hcall
    · obtain ⟨m, hm, hsized⟩ := hinv.wellSized key sc hlookup
      refine ⟨⟨m, hm, ?_, hsized⟩, key, hkey,
        .inr ⟨rfl, ScratchState.allocated_of_lookup es key sc hlookup⟩⟩
      rwa [hsized sc.h (by simp [FatScratch.rowBuffers])] at hrows
    · obtain ⟨m, hm, hsized⟩ := wellSized_empty c _ _ _ configured
      refine ⟨⟨m, hm, ?_, hsized⟩, key, hkey, .inl rfl⟩
      have hcap : ScratchCall.capacity (ScratchCall.needed c.rows configured) = 2 ^ m :=
        hsized _ (List.mem_cons_self ..)
      have hneeded : c.rows ≤ ScratchCall.needed c.rows configured :=
        (le_max_right 256 c.rows).trans (le_max_left _ _)
      exact hcap ▸ hneeded.trans (le_capacity _)
  · rw [hinv.bytes, ScratchState.sumBytes, hinv.cacheBytes, List.map_map]
    rfl

/-- The second call does not fit the first scratch and replaces it; the third fits. -/
example :
    let call (rows : ℤ) : ScratchEvent := .call ⟨⟨none, none⟩, ['c'], rows, ⟨2, 1, 4, [1, 1, 4]⟩⟩
    let s := Run.run ScratchState.step .initial [call 100, call 300, call 200]
    (s.cache.entries.map fun e => e.2.h.rows, s.allocs) = ([512], 2) := by decide

end Glm53Serve.Exl3
