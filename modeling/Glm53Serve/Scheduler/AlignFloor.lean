import Glm53Serve.AdaptiveK.Policy
import Glm53Serve.Lib.Advance

/-!
# The align floor

`Scheduler._mamba_block_aligned_split` clips a chunk of a prefill so that it ends where the
state of the mamba layers is to be cached. `overlay/patch_align_floor.py` keeps it from
clipping a chunk to nothing.

## The model

The method, with the condition for truncating to a block boundary as upstream has it and as
the patch has it. Counts of tokens are natural numbers; the limits of the scheduler are
integers.

## What is proved

* `split_pos`, `split_le` — a chunk of a prefill is not clipped to nothing.
* `split_stops` — it does not run over a stop.
* `split_eq_upstream` — where the patch changes nothing.
* `split_progress` — these, and that a prefill ends and visits the last cache position.
-/

namespace Glm53Serve.Scheduler

open Py

/-! ### The method -/

/-- What the method reads of a request. -/
structure Request where
  numComputedTokens : ℕ
  numPromptTokens : ℕ
  numTokens : ℕ
  sharedPrefixBoundary : ℕ

/-- The settings of the scheduler. -/
structure Config where
  /-- `cache_config.block_size`. -/
  blockSize : ℕ
  hashBlockSize : ℕ
  maxNumScheduledTokens : ℤ
  /-- `scheduler_config.long_prefill_token_threshold`. -/
  longPrefillTokenThreshold : ℤ
  useEagle : Bool
  mambaPartialCacheHit : Bool
  blockSize_pos : 1 ≤ blockSize
  hashBlockSize_pos : 1 ≤ hashBlockSize

/-- `_glm53_align_floor()`, of the value of `GLM53_ALIGN_FLOOR`. -/
def alignFloor (env : Option Text) : Bool :=
  !([['0'], ['o', 'f', 'f'], ['f', 'a', 'l', 's', 'e'], ['n', 'o'], []].contains
    (AdaptiveK.word (env.getD ['1'])))

/-- `prefill_end`. -/
def prefillEnd (r : Request) : ℕ := max r.numPromptTokens (r.numTokens - 1)

variable (cfg : Config)

/-- `max_prefill_tokens`. -/
def maxPrefillTokens : ℤ :=
  if 0 < cfg.longPrefillTokenThreshold then
    min cfg.maxNumScheduledTokens cfg.longPrefillTokenThreshold
  else cfg.maxNumScheduledTokens

/-- The condition of `SPLIT_OLD`. -/
def alignsOld (start alignedEnd : ℕ) : Bool :=
  alignedEnd > start || decide ((cfg.blockSize : ℤ) ≤ maxPrefillTokens cfg)

/-- The condition of `SPLIT_NEW`. -/
def alignsNew (env : Option Text) (start alignedEnd : ℕ) : Bool :=
  alignedEnd > start || (decide ((cfg.blockSize : ℤ) ≤ maxPrefillTokens cfg) && !alignFloor env)

/-- `last_cache_position`. -/
def lastCachePosition (r : Request) : ℕ :=
  let position := r.numTokens - r.numTokens % cfg.blockSize
  if cfg.useEagle then position - cfg.blockSize else position

/-- `tail_boundary`. -/
def tailBoundary (r : Request) : ℕ :=
  if cfg.mambaPartialCacheHit then r.numPromptTokens / cfg.hashBlockSize * cfg.hashBlockSize else 0

/-- `next_block_boundary`. -/
def nextBlockBoundary (start : ℕ) : ℕ := (start / cfg.blockSize + 1) * cfg.blockSize

/-- The end of the chunk before the stops, with the condition for truncating it. -/
def chunkEnd (aligns : ℕ → ℕ → Bool) (r : Request) (start numNewTokens : ℕ) : ℕ :=
  let stop := start + numNewTokens
  if stop < prefillEnd r then
    let alignedEnd := stop / cfg.blockSize * cfg.blockSize
    if aligns start alignedEnd then alignedEnd else stop
  else stop

/-- `stops`, for a chunk that would end at `stop`. -/
def stops (r : Request) (start stop : ℕ) : List ℕ :=
  [if start % cfg.blockSize ≠ 0 then nextBlockBoundary cfg start else 0,
    lastCachePosition cfg r,
    if lastCachePosition cfg r < tailBoundary cfg r ∧ tailBoundary cfg r < r.numPromptTokens then
      tailBoundary cfg r
    else 0,
    if start < r.sharedPrefixBoundary ∧ r.sharedPrefixBoundary < stop then
      start + (r.sharedPrefixBoundary - start) / cfg.blockSize * cfg.blockSize
    else 0]

/-- `min((s for s in stops if start < s < end), default=end)`. -/
def firstStop (l : List ℕ) (start stop : ℕ) : ℕ :=
  ((l.filter fun s => start < s ∧ s < stop).min?).getD stop

/-- The tokens of a request that are computed where a chunk starts. -/
def startOf (r : Request) (newLocal external : ℕ) : ℕ := r.numComputedTokens + newLocal + external

/-- The method, with the condition for truncating. -/
def splitWith (aligns : ℕ → ℕ → Bool) (r : Request) (numNewTokens newLocal external : ℕ) : ℕ :=
  let start := startOf r newLocal external
  if prefillEnd r ≤ start then numNewTokens
  else
    let stop := chunkEnd cfg aligns r start numNewTokens
    firstStop (stops cfg r start stop) start stop - start

/-- `_mamba_block_aligned_split` of upstream. -/
def upstreamSplit : Request → ℕ → ℕ → ℕ → ℕ := splitWith cfg (alignsOld cfg)

/-- `_mamba_block_aligned_split` as patched. -/
def mambaBlockAlignedSplit (env : Option Text) : Request → ℕ → ℕ → ℕ → ℕ :=
  splitWith cfg (alignsNew cfg env)

/-! ### The first stop -/

theorem firstStop_le (l : List ℕ) (start stop : ℕ) : firstStop l start stop ≤ stop := by
  rw [firstStop]
  cases h : (l.filter fun s => start < s ∧ s < stop).min? with
  | none => exact le_rfl
  | some s =>
    have := (List.mem_filter.mp (List.min?_mem h)).2
    simp only [decide_eq_true_eq] at this
    exact this.2.le

theorem lt_firstStop {l : List ℕ} {start stop : ℕ} (h : start < stop) :
    start < firstStop l start stop := by
  rw [firstStop]
  cases hm : (l.filter fun s => start < s ∧ s < stop).min? with
  | none => exact h
  | some s =>
    have := (List.mem_filter.mp (List.min?_mem hm)).2
    simp only [decide_eq_true_eq] at this
    exact this.1

/-- No stop is strictly between the start and the first stop. -/
theorem not_lt_firstStop {l : List ℕ} {start stop s : ℕ} (hs : s ∈ l) (h : start < s) :
    ¬ s < firstStop l start stop := by
  intro hlt
  have hmem : s ∈ l.filter fun s => start < s ∧ s < stop :=
    List.mem_filter.mpr ⟨hs, by simpa using ⟨h, hlt.trans_le (firstStop_le l start stop)⟩⟩
  rw [firstStop] at hlt
  cases hm : (l.filter fun s => start < s ∧ s < stop).min? with
  | none => rw [List.min?_eq_none_iff.mp hm] at hmem; cases hmem
  | some m =>
    rw [hm, Option.getD_some] at hlt
    exact absurd ((List.min?_eq_some_iff.mp hm).2 s hmem) (by omega)

/-! ### The end of the chunk -/

variable {cfg}

theorem alignsNew_eq {env : Option Text} (h : alignFloor env = true) (start alignedEnd : ℕ) :
    alignsNew cfg env start alignedEnd = decide (alignedEnd > start) := by
  simp [alignsNew, h]

/-- **The end of the chunk** with the floor on: the proposed one, or a block boundary in it. -/
theorem chunkEnd_cases (cfg : Config) {env : Option Text} (h : alignFloor env = true) (r : Request)
    (start n : ℕ) :
    (chunkEnd cfg (alignsNew cfg env) r start n = start + n ∧
      (start + n < prefillEnd r → (start + n) / cfg.blockSize * cfg.blockSize ≤ start)) ∨
    (start + n < prefillEnd r ∧ start < chunkEnd cfg (alignsNew cfg env) r start n ∧
      chunkEnd cfg (alignsNew cfg env) r start n =
        (start + n) / cfg.blockSize * cfg.blockSize) := by
  simp only [chunkEnd, alignsNew_eq h]
  by_cases hlt : start + n < prefillEnd r
  · by_cases ha : (start + n) / cfg.blockSize * cfg.blockSize > start
    · right
      simp [hlt, ha]
    · left
      simp [hlt, ha]
      omega
  · left
    simp [hlt]

theorem chunkEnd_le (cfg : Config) {env : Option Text} (h : alignFloor env = true) (r : Request)
    (start n : ℕ) :
    chunkEnd cfg (alignsNew cfg env) r start n ≤ start + n := by
  obtain ⟨he, -⟩ | ⟨-, -, he⟩ := chunkEnd_cases cfg h r start n
  · exact he.le
  · exact he ▸ Nat.div_mul_le_self _ _

theorem lt_chunkEnd (cfg : Config) {env : Option Text} (h : alignFloor env = true)
    (r : Request) (start : ℕ)
    {n : ℕ} (hn : 1 ≤ n) : start < chunkEnd cfg (alignsNew cfg env) r start n := by
  obtain ⟨he, -⟩ | ⟨-, hlt, -⟩ := chunkEnd_cases cfg h r start n
  · omega
  · exact hlt

/-! ### A chunk of a prefill -/

section Chunk

variable (cfg) {env : Option Text} (h : alignFloor env = true) {r : Request} {newLocal external : ℕ}

theorem split_eq_of_prefill (hs : startOf r newLocal external < prefillEnd r) (n : ℕ) :
    mambaBlockAlignedSplit cfg env r n newLocal external =
      (let start := startOf r newLocal external
       let stop := chunkEnd cfg (alignsNew cfg env) r start n
       firstStop (stops cfg r start stop) start stop - start) := by
  rw [mambaBlockAlignedSplit, splitWith, if_neg (not_le.mpr hs)]

include h

/-- A chunk is not clipped to nothing. -/
theorem split_pos (hs : startOf r newLocal external < prefillEnd r) {n : ℕ} (hn : 1 ≤ n) :
    1 ≤ mambaBlockAlignedSplit cfg env r n newLocal external := by
  rw [split_eq_of_prefill cfg hs]
  have := lt_firstStop (l := stops cfg r (startOf r newLocal external)
    (chunkEnd cfg (alignsNew cfg env) r (startOf r newLocal external) n))
    (lt_chunkEnd cfg h r (startOf r newLocal external) hn)
  simp only
  omega

/-- A chunk is not longer than proposed. -/
theorem split_le (n : ℕ) : mambaBlockAlignedSplit cfg env r n newLocal external ≤ n := by
  rcases le_or_gt (prefillEnd r) (startOf r newLocal external) with hs | hs
  · rw [mambaBlockAlignedSplit, splitWith, if_pos hs]
  · rw [split_eq_of_prefill cfg hs]
    have h1 := firstStop_le (stops cfg r (startOf r newLocal external)
      (chunkEnd cfg (alignsNew cfg env) r (startOf r newLocal external) n))
      (startOf r newLocal external)
        (chunkEnd cfg (alignsNew cfg env) r (startOf r newLocal external) n)
    have h2 := chunkEnd_le cfg h r (startOf r newLocal external) n
    simp only
    omega

end Chunk

/-! ### The stops -/

theorem lt_nextBlockBoundary (start : ℕ) : start < nextBlockBoundary cfg start := by
  rw [nextBlockBoundary, Nat.succ_mul]
  have := Nat.div_add_mod' start cfg.blockSize
  have := Nat.mod_lt start cfg.blockSize_pos
  omega

theorem nextBlockBoundary_le_add (cfg : Config) (start : ℕ) :
    nextBlockBoundary cfg start ≤ start + cfg.blockSize := by
  rw [nextBlockBoundary, Nat.succ_mul]
  have := Nat.div_mul_le_self start cfg.blockSize
  omega

/-- The shared-prefix stop. -/
def sharedStop (cfg : Config) (r : Request) (start : ℕ) : ℕ :=
  start + (r.sharedPrefixBoundary - start) / cfg.blockSize * cfg.blockSize

/-- The stops other than the shared-prefix stop do not depend on where the chunk ends. -/
theorem mem_stops {r : Request} {start stop s : ℕ} (e : ℕ) (hs : s ∈ stops cfg r start stop)
    (h : start < s) :
    s ∈ stops cfg r start e ∨
      (s = sharedStop cfg r start ∧ start < r.sharedPrefixBoundary ∧
        r.sharedPrefixBoundary < stop) := by
  simp only [stops, List.mem_cons, List.not_mem_nil, or_false] at hs ⊢
  rcases hs with hs | hs | hs | hs
  · exact Or.inl (Or.inl hs)
  · exact Or.inl (Or.inr (Or.inl hs))
  · exact Or.inl (Or.inr (Or.inr (Or.inl hs)))
  · split_ifs at hs with hc
    · exact Or.inr ⟨hs, hc⟩
    · omega

/-- A shared-prefix stop that the chunk does not look at is not in it. -/
theorem sharedStop_not_between {env : Option Text} (h : alignFloor env = true) {r : Request}
    {start n : ℕ}
    (hb : r.sharedPrefixBoundary < max (start + n) (prefillEnd r))
    (hend : chunkEnd cfg (alignsNew cfg env) r start n ≤ r.sharedPrefixBoundary)
    (hs : start < sharedStop cfg r start) :
    ¬ sharedStop cfg r start < firstStop
      (stops cfg r start (chunkEnd cfg (alignsNew cfg env) r start n))
      start (chunkEnd cfg (alignsNew cfg env) r start n) := by
  have hfirst := firstStop_le (stops cfg r start (chunkEnd cfg (alignsNew cfg env) r start n)) start
    (chunkEnd cfg (alignsNew cfg env) r start n)
  have hstep : start + cfg.blockSize ≤ sharedStop cfg r start := by
    rw [sharedStop] at hs ⊢
    have hpos : 0 < (r.sharedPrefixBoundary - start) / cfg.blockSize := by
      rcases Nat.eq_zero_or_pos ((r.sharedPrefixBoundary - start) / cfg.blockSize) with h0 | h0
      · rw [h0, Nat.zero_mul] at hs
        omega
      · exact h0
    exact Nat.add_le_add_left (Nat.le_mul_of_pos_left _ hpos) _
  have hnext := nextBlockBoundary_le_add cfg start
  by_cases haligned : start % cfg.blockSize = 0
  · -- the shared-prefix stop is a block boundary
    have hdvd : cfg.blockSize ∣ sharedStop cfg r start :=
      (Nat.dvd_add_right (Nat.dvd_of_mod_eq_zero haligned)).mpr (Nat.dvd_mul_left _ _)
    obtain ⟨he, hno⟩ | ⟨-, hlt, he⟩ := chunkEnd_cases cfg h r start n
    · intro hlts
      have := Advance.le_mul_div hdvd (show sharedStop cfg r start ≤ start + n by omega)
      have := hno (by omega)
      omega
    · have hd : cfg.blockSize ∣ chunkEnd cfg (alignsNew cfg env) r start n - start :=
        Nat.dvd_sub (he ▸ Nat.dvd_mul_left _ _) (Nat.dvd_of_mod_eq_zero haligned)
      have := Advance.le_mul_div hd (show chunkEnd cfg (alignsNew cfg env) r start n - start ≤
        r.sharedPrefixBoundary - start by omega)
      rw [sharedStop]
      omega
  · -- the next block boundary comes first
    intro hlts
    have hmem : nextBlockBoundary cfg start ∈
        stops cfg r start (chunkEnd cfg (alignsNew cfg env) r start n) := by
      simp [stops, haligned]
    exact not_lt_firstStop hmem (lt_nextBlockBoundary start)
      (lt_of_le_of_lt (hnext.trans hstep) hlts)

/-- **A chunk does not run over a stop**, whether the shared-prefix stop is looked for in the chunk
that is returned, in the proposed chunk or up to the end of the prefill. -/
theorem split_stops {env : Option Text} (h : alignFloor env = true) {r : Request}
    {newLocal external n : ℕ}
    (hs : startOf r newLocal external < prefillEnd r) {stop s : ℕ}
    (hstop : stop ≤ max (startOf r newLocal external + n) (prefillEnd r))
    (hmem : s ∈ stops cfg r (startOf r newLocal external) stop) :
    ¬ (startOf r newLocal external < s ∧
      s < startOf r newLocal external + mambaBlockAlignedSplit cfg env r n newLocal external) := by
  rintro ⟨hlt, hgt⟩
  rw [split_eq_of_prefill cfg hs] at hgt
  simp only at hgt
  set start := startOf r newLocal external
  set e := chunkEnd cfg (alignsNew cfg env) r start n
  have hgt' : s < firstStop (stops cfg r start e) start e := by omega
  rcases mem_stops e hmem hlt with hm | ⟨rfl, h1, h2⟩
  · exact not_lt_firstStop hm hlt hgt'
  · rcases lt_or_ge r.sharedPrefixBoundary e with hb | hb
    · refine not_lt_firstStop ?_ hlt hgt'
      simp [stops, sharedStop, h1, hb]
    · exact sharedStop_not_between h (h2.trans_le hstop) hb hlt hgt'

/-! ### A whole prefill -/

/-- The request with so many tokens computed. -/
def Request.computed (r : Request) (p : ℕ) : Request := { r with numComputedTokens := p }

/-- Where the prefill of a request stands after each step, from `first` on, with the chunks
proposed. -/
def positions (cfg : Config) (env : Option Text) (r : Request) (chunks : ℕ → ℕ) (first : ℕ) : ℕ → ℕ
  | 0 => first
  | k + 1 =>
    let p := positions cfg env r chunks first k
    p + mambaBlockAlignedSplit cfg env (r.computed p) (chunks k) 0 0

theorem positions_advance {env : Option Text} (h : alignFloor env = true) {r : Request}
    {chunks : ℕ → ℕ}
    (hc : ∀ k, 1 ≤ chunks k) {first k : ℕ}
    (hk : positions cfg env r chunks first k < prefillEnd r) :
    positions cfg env r chunks first k < positions cfg env r chunks first (k + 1) := by
  have hs : startOf (r.computed (positions cfg env r chunks first k)) 0 0 <
      prefillEnd (r.computed (positions cfg env r chunks first k)) := hk
  have hpos := split_pos cfg h hs (hc k)
  simp only [positions]
  omega

theorem positions_not_jump {env : Option Text} (h : alignFloor env = true) {r : Request}
    {chunks : ℕ → ℕ}
    {first k : ℕ} (hk : positions cfg env r chunks first k < prefillEnd r) :
    ¬ (positions cfg env r chunks first k < lastCachePosition cfg r ∧
      lastCachePosition cfg r < positions cfg env r chunks first (k + 1)) := by
  have hs : startOf (r.computed (positions cfg env r chunks first k)) 0 0 <
      prefillEnd (r.computed (positions cfg env r chunks first k)) := hk
  exact split_stops (n := chunks k) h hs (Nat.zero_le _) (List.mem_cons_of_mem _ List.mem_cons_self)

/-- Where blocks are longer than the limits of a step, the patch changes nothing. -/
theorem split_eq_upstream (env : Option Text) (h : maxPrefillTokens cfg < (cfg.blockSize : ℤ)) :
    mambaBlockAlignedSplit cfg env = upstreamSplit cfg := by
  have ha : alignsNew cfg env = alignsOld cfg := by
    funext start alignedEnd
    simp [alignsNew, alignsOld, not_le.mpr h]
  rw [mambaBlockAlignedSplit, upstreamSplit, ha]

/-- **The align floor.** With the floor on, a chunk of a prefill is not clipped to nothing and does
not run over a stop, so a prefill ends and visits the last cache position; and where blocks are
longer than the limits of a step, the split is that of upstream. -/
theorem split_progress (cfg : Config) (env : Option Text) (r : Request) :
    (alignFloor env = true →
      (∀ n newLocal external, startOf r newLocal external < prefillEnd r → 1 ≤ n →
        1 ≤ mambaBlockAlignedSplit cfg env r n newLocal external ∧
          mambaBlockAlignedSplit cfg env r n newLocal external ≤ n) ∧
      (∀ n newLocal external, startOf r newLocal external < prefillEnd r →
        ∀ stop ≤ max (startOf r newLocal external + n) (prefillEnd r),
          ∀ s ∈ stops cfg r (startOf r newLocal external) stop,
            ¬ (startOf r newLocal external < s ∧
              s < startOf r newLocal external +
                mambaBlockAlignedSplit cfg env r n newLocal external)) ∧
      ∀ chunks : ℕ → ℕ, (∀ k, 1 ≤ chunks k) → ∀ first,
        (∃ k, prefillEnd r ≤ positions cfg env r chunks first k) ∧
          (first < lastCachePosition cfg r → lastCachePosition cfg r < prefillEnd r →
            ∃ k, positions cfg env r chunks first k = lastCachePosition cfg r)) ∧
    (maxPrefillTokens cfg < (cfg.blockSize : ℤ) →
      ∀ n newLocal external, mambaBlockAlignedSplit cfg env r n newLocal external =
        upstreamSplit cfg r n newLocal external) := by
  refine ⟨fun h => ⟨fun n l e hs hn => ⟨split_pos cfg h hs hn, split_le cfg h n⟩,
    fun n l e hs stop hstop s hmem => split_stops h hs hstop hmem,
    fun chunks hc first => ⟨?_, ?_⟩⟩, ?_⟩
  · exact Advance.exists_reaches fun k hk => positions_advance h hc hk
  · intro h0 hstop
    exact @Advance.exists_visits (positions cfg env r chunks first) _
      (fun k hk => positions_advance h hc hk) _ (fun k hk => positions_not_jump h hk) h0 hstop
  · intro h n l e
    rw [split_eq_upstream env h]

/-- A chunk of 512 tokens at the start of a prefill with blocks of 3584 tokens: upstream clips it to
nothing where the threshold is a block, and the patch lets it pass. -/
theorem split_progress_sub_block :
    let cfg : Config := ⟨3584, 64, 8192, 3584, false, false, by decide, by decide⟩
    let r : Request := ⟨0, 20000, 20000, 0⟩
    1 ≤ mambaBlockAlignedSplit cfg none r 512 0 0 ∧ upstreamSplit cfg r 512 0 0 = 0 := by
  intro cfg r
  have h := ((split_progress cfg none r).1 (by decide)).1 512 0 0 (by decide) (by decide)
  exact ⟨h.1, by decide⟩

end Glm53Serve.Scheduler
