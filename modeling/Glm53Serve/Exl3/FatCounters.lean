import Glm53Serve.Exl3.Agreement
import Mathlib.Data.Fintype.Defs

/-!
# The receipts of the fat experts

The counters of `_EXL3_FAT_DIAG` over the calls of the fused apply that complete and the
resets, with any flags, layers and routings. A counter is compared with the history of the
calls since the last reset.

## What is proved

* `FusedMoeCall.apply_ok` — what a completed call does to the counters, in four cases.
* `reached_conserved` — every large call went one way, with one reason; the kernel scattered
  as often as it multiplied; and every fat expert of a fallback ran once.
-/

namespace Glm53Serve.Exl3

open Torch Segments

instance : Fintype FatReason where
  elems := {.noFatExperts, .thinOnly, .rowTilePreemptsFat, .kernelOk, .batchedOk,
    .degradedSharedSuh,
    .sortedOk, .legacyDefault}
  complete reason := by cases reason <;> decide

/-- `_FAT_TIERS`. -/
def fatTiers : Finset FatTier := {.kernel, .batched, .sorted, .legacy}

/-! ### The counters -/

namespace FatState

/-- The sum of `fallback_calls`. -/
def fallbackSum (s : FatState) : ℕ := ∑ tier ∈ fatTiers, s.fallbackCalls tier

/-- The sum of `fallback_reasons`. -/
def reasonSum (s : FatState) : ℕ := ∑ reason, s.fallbackReasons reason

/-- The counters of `reset_exl3_fat_diag_counters`; the labels are the layers' own. -/
def resetCounters (s : FatState) : FatState :=
  { s with
    prefillLayerCalls := 0
    thinCalls := 0
    rowTileCalls := 0
    fatExpertRuns := 0
    directCalls := 0
    scatterCalls := 0
    fallbackCalls := fun _ => 0
    fallbackReasons := fun _ => 0 }

/-- `n` fat experts ran, by the kernel or not. -/
def ran (useKernel : Bool) (n : ℕ) (s : FatState) : FatState :=
  { s with
    fatExpertRuns := s.fatExpertRuns + n
    directCalls := s.directCalls + if useKernel then n else 0
    scatterCalls := s.scatterCalls + if useKernel then n else 0 }

theorem ran_zero (useKernel : Bool) (s : FatState) : s.ran useKernel 0 = s := by
  cases useKernel <;> rfl

theorem ran_ran (useKernel : Bool) (m n : ℕ) (s : FatState) :
    (s.ran useKernel m).ran useKernel n = s.ran useKernel (m + n) := by
  cases useKernel <;> simp [ran, Nat.add_assoc]

theorem sum_update_succ {ι : Type*} [DecidableEq ι] {t : Finset ι} {i : ι} (hi : i ∈ t)
    (f : ι → ℕ) :
    ∑ j ∈ t, Function.update f i (f i + 1) j = ∑ j ∈ t, f j + 1 := by
  rw [Finset.sum_update_of_mem hi, ← Finset.add_sum_erase t f hi, Finset.sdiff_singleton_eq_erase]
  omega

@[simp] theorem reasonSum_recordFatReason (s : FatState) (reason : FatReason) :
    (s.recordFatReason reason).reasonSum = s.reasonSum + 1 :=
  sum_update_succ (Finset.mem_univ reason) s.fallbackReasons

@[simp] theorem reasonSum_recordFatTier (s : FatState) (tier : FatTier) (reason : FatReason) :
    (s.recordFatTier tier reason).reasonSum = s.reasonSum + 1 :=
  sum_update_succ (Finset.mem_univ reason) s.fallbackReasons

theorem fallbackSum_recordFatTier {tier : FatTier} (ht : tier ∈ fatTiers) (s : FatState)
    (reason : FatReason) : (s.recordFatTier tier reason).fallbackSum = s.fallbackSum + 1 :=
  sum_update_succ ht s.fallbackCalls

end FatState

/-! ### What a completed call does -/

theorem countP_range_getD (p : ℕ → Bool) (l : List ℕ) :
    (List.range l.length).countP (fun e => p (l.getD e 0)) = l.countP p := by
  have hl : (List.range l.length).map (l.getD · 0) = l :=
    List.ext_getElem (by simp) fun i h _ => by simp_all
  conv_rhs => rw [← hl, List.countP_map]
  rfl

section Calls

variable {S P X I V W L : Type*} {T K : ℕ}

/-- A loop over the fat experts that returns ran each of them once, if its body runs one. -/
theorem forFatExperts_ran {cap : ℕ} {body : ℕ → ℕ → ℕ → (Fin T → V) × FatState → Outcome T V}
    {useKernel : Bool}
    (hbody : ∀ e offset nRows st st', body e offset nRows st = .ok st' →
      st'.2 = st.2.ran useKernel 1)
    {e offset : ℕ} {counts : List ℕ} {st st' : (Fin T → V) × FatState}
    (hrun : forFatExperts cap body e offset counts st = .ok st') :
    st'.2 = st.2.ran useKernel (counts.countP (cap < ·)) := by
  induction counts generalizing e offset st with
  | nil =>
    cases hrun
    exact (FatState.ran_zero useKernel _).symm
  | cons nRows counts ih =>
    rw [forFatExperts] at hrun
    split_ifs at hrun with hcap
    · rw [ih hrun, List.countP_cons_of_neg (by simpa using hcap)]
    · cases hstep : body e offset nRows st with
      | error err => simp [hstep, bind, Except.bind] at hrun
      | ok mid =>
        rw [hstep] at hrun
        rw [ih hrun, hbody e offset nRows st mid hstep, FatState.ran_ran,
          List.countP_cons_of_pos (by simpa using hcap), Nat.add_comm]

variable [Add V] [Mul I] [SMul W V]

theorem applyExl3SortedFat_ran {ext : Ext S P X I V W L} {xh : Fin T → X} {tokens : List (Fin T)}
    {scale : List W} {counts : List ℕ} {inners : List (Pack S P)} {limit : L} {cap : ℕ}
    {out : Fin T → V} {s : FatState} {st' : (Fin T → V) × FatState}
    (hrun : applyExl3SortedFat ext xh tokens scale counts inners limit cap out s = .ok st') :
    st'.2 = s.ran false (counts.countP (cap < ·)) := by
  refine forFatExperts_ran (fun e offset nRows st st' hstep => ?_) hrun
  cases hpack : inners[e]? with
  | none => simp [hpack] at hstep
  | some pack =>
    simp only [hpack, Except.ok.injEq] at hstep
    rw [← hstep]
    rfl

omit [Mul I] in
/-- A scatter that returns counts itself. -/
theorem fatDown_ran {ext : Ext S P X I V W L}
    {gemmScatter :
      Option ((T : ℕ) → List I → P → (Fin T → V) → List (Fin T) → List W → ℕ → Fin T → V)}
    {pack : Pack S P} {h2 : List I} {tokenIdx : List (Fin T)} {scale : List W} {out : Fin T → V}
    {s : FatState} {st' : (Fin T → V) × FatState}
    (h : fatDown ext gemmScatter true pack h2 tokenIdx scale out s = .ok st') :
    st'.2 = { s with scatterCalls := s.scatterCalls + 1 } := by
  unfold fatDown at h
  cases gemmScatter with
  | none => simp at h
  | some g =>
    simp only [↓reduceIte] at h
    split_ifs at h
    rw [← Except.ok.inj h]

theorem batchedFatStep_ran {env : Env} {ext : Ext S P X I V W L}
    {gemm : Option (P × P → ℕ → X → I × I)}
    {gemmScatter :
      Option ((T : ℕ) → List I → P → (Fin T → V) → List (Fin T) → List W → ℕ → Fin T → V)}
    {xh : Fin T → X} {tokens : List (Fin T)} {scale : List W} {inners : List (Pack S P)} {limit : L}
    {useKernel : Bool} {e offset nRows : ℕ} {st st' : (Fin T → V) × FatState}
    (hstep : batchedFatStep env ext gemm gemmScatter xh tokens scale inners limit useKernel e offset
      nRows st = .ok st') : st'.2 = st.2.ran useKernel 1 := by
  simp only [batchedFatStep] at hstep
  cases hpack : inners[e]? with
  | none => simp [hpack] at hstep
  | some pack =>
    cases hrows : env.scratch.configured with
    | none => simp [hpack, hrows] at hstep
    | some rows =>
      cases useKernel with
      | false =>
        simp only [hpack, hrows, fatGateUp, fatDown, Bool.false_eq_true, ↓reduceIte,
          Except.ok.injEq] at hstep
        rw [← hstep]
        rfl
      | true =>
        -- the direct GEMM and the scatter are counted by two functions, of which either may raise
        cases hgemm : gemm with
        | none => simp [hpack, hrows, hgemm, fatGateUp] at hstep
        | some g =>
          by_cases hbits : pack.gate.k = kernelBits
          · simp only [hpack, hrows, hgemm, fatGateUp, hbits, ne_eq, not_true_eq_false,
              ↓reduceIte] at hstep
            exact fatDown_ran hstep
          · simp [hpack, hrows, hgemm, fatGateUp, hbits] at hstep

theorem applyExl3BatchedFat_ran {env : Env} {ext : Ext S P X I V W L} {xh : Fin T → X}
    {tokens : List (Fin T)} {scale : List W} {counts : List ℕ}
    {inners : List (Pack S P)} {limit : L}
    {cap : ℕ} {out : Fin T → V} {useKernel : Bool} {s : FatState} {st' : (Fin T → V) × FatState}
    (hrun : applyExl3BatchedFat env ext xh tokens scale counts inners limit cap out useKernel s
      = .ok st') : st'.2 = s.ran useKernel (counts.countP (cap < ·)) := by
  simp only [applyExl3BatchedFat] at hrun
  split at hrun
  · cases hrun
  · exact forFatExperts_ran (fun e offset nRows st st' => batchedFatStep_ran) hrun

/-- A fallback records its tier and runs every fat expert once. -/
theorem applyFatFallback_ok [Zero V] {env : Env} {ext : Ext S P X I V W L} {x2d : Fin T → X}
    {ids : Fin T → Fin K → ℤ} {weights : Fin T → Fin K → W} {layer : Layer S P}
    {expertMap : Option ExpertMap} {limit : L} {cap : ℕ} {r : Routing T W}
    {countsHost : Option (List ℕ)}
    (hhost : ∀ c ∈ countsHost, c = r.expertCount.take layer.inners.length) {out : Fin T → V}
    {s : FatState} {st' : (Fin T → V) × FatState}
    (hrun : applyFatFallback env ext x2d ids weights layer expertMap limit cap r countsHost out s
      = .ok st') :
    ∃ tier ∈ fatTiers, ∃ reason useKernel, st'.2 = (s.recordFatTier tier reason).ran useKernel
      ((r.expertCount.take layer.inners.length).countP (cap < ·)) := by
  simp only [applyFatFallback] at hrun
  split at hrun
  · cases countsHost with
    | none => cases hrun
    | some host =>
      rw [hhost host rfl] at hrun
      have hran := applyExl3BatchedFat_ran hrun
      cases hkernel : (fatFlags env layer).useFatKernel with
      | true => exact ⟨.kernel, by decide, .kernelOk, true, by simpa [hkernel] using hran⟩
      | false => exact ⟨.batched, by decide, .batchedOk, false, by simpa [hkernel] using hran⟩
  · split at hrun
    · cases countsHost with
      | none => cases hrun
      | some host =>
        rw [hhost host rfl] at hrun
        exact ⟨.sorted, by decide, _, false, applyExl3SortedFat_ran hrun⟩
    · refine ⟨.legacy, by decide, .legacyDefault, false, ?_⟩
      have hfat : ((List.range (r.expertCount.take layer.inners.length).length).filter fun e =>
          cap < (r.expertCount.take layer.inners.length).getD e 0).length
          = (r.expertCount.take layer.inners.length).countP (cap < ·) := by
        rw [← List.countP_eq_length_filter]
        exact countP_range_getD (decide <| cap < ·) _
      split at hrun
      · cases hrun
        rw [hfat]
        rfl
      · rename_i hempty
        cases hrun
        rw [← hfat, not_not.mp hempty, FatState.ran_zero]

end Calls

/-! ### Runs -/

/-- A call of the fused apply: its batch, its layer, and the environment at the time. -/
structure FusedMoeCall (S P X I V W L : Type*) where
  T : ℕ
  K : ℕ
  env : Env
  ext : Ext S P X I V W L
  argsort : Argsort
  x2d : Fin T → X
  ids : Fin T → Fin K → ℤ
  weights : Fin T → Fin K → W
  layer : Layer S P
  expertMap : Option ExpertMap
  limit : L

section Runs

variable {S P X I V W L : Type*}

namespace FusedMoeCall

/-- The temporary rows of the layer. -/
def cap (c : FusedMoeCall S P X I V W L) : ℕ := c.layer.fusedTemps.getD 0

/-- The rows routed to the local expert `e`. -/
def rows (c : FusedMoeCall S P X I V W L) (e : ℕ) : ℕ :=
  (reshape c.ids).countP fun id =>
    mapId c.layer.inners.length (c.expertMap.map ExpertMap.values) id = e

/-- The experts with more rows than fit. -/
def fatExperts (c : FusedMoeCall S P X I V W L) : ℕ :=
  (List.range c.layer.inners.length).countP fun e => c.cap < c.rows e

/-- `apply_exl3_fused_moe`. -/
def apply [Add V] [Zero V] [Mul I] [SMul W V] (c : FusedMoeCall S P X I V W L) (s : FatState) :
    Outcome c.T V :=
  applyExl3FusedMoe c.env c.ext c.argsort c.x2d c.ids c.weights c.layer c.expertMap c.limit s

end FusedMoeCall

namespace FatState

/-- The labels as a call resets them. -/
def entered (s : FatState) : FatState :=
  { s with lastFatFallback := .none, lastFatReason := .noFatExperts }

/-- A call with more tokens than temporary rows. -/
def prefill (s : FatState) : FatState :=
  { s.entered with prefillLayerCalls := s.prefillLayerCalls + 1 }

/-- Such a call in which every expert fits. -/
def thin (s : FatState) : FatState :=
  FatState.recordFatReason { s.prefill with thinCalls := s.thinCalls + 1 } .thinOnly

/-- Such a call by row tiles. -/
def rowTile (s : FatState) : FatState :=
  FatState.recordFatReason
    { s.prefill with
      rowTileCalls := s.rowTileCalls + 1
      lastFatFallback := .rowTile
      lastFatReason := .rowTilePreemptsFat } .rowTilePreemptsFat

end FatState

theorem mapId_nonneg (nLocal : ℕ) (map : Option (List ℤ)) (id : ℤ) : 0 ≤ mapId nLocal map id := by
  cases map with
  | none =>
    simp only [mapId]
    split_ifs <;> omega
  | some map =>
    simp only [mapId]
    split_ifs <;> omega

theorem mapTopkToLocal_ok {flat localIds : List ℤ} {nLocal : ℕ} {expertMap : Option ExpertMap}
    (h : mapTopkToLocal flat nLocal expertMap = .ok localIds) :
    localIds = flat.map (mapId nLocal (expertMap.map ExpertMap.values)) := by
  cases expertMap with
  | none => exact (Except.ok.inj h).symm
  | some map =>
    rw [mapTopkToLocal] at h
    split_ifs at h
    exact (Except.ok.inj h).symm

/-- The counts of the experts are those of the ids that are routed to them. -/
theorem take_expertCount {T K : ℕ} (argsort : Argsort) (ids : List ℤ) (nLocal : ℕ)
    (map : Option (List ℤ)) (weights : Fin T → Fin K → W) :
    (sortRouting argsort nLocal (ids.map (mapId nLocal map)) weights).expertCount.take nLocal
      = (List.range nLocal).map fun e : ℕ => ids.countP fun id =>
        mapId nLocal map id = (e : ℤ) := by
  refine List.ext_getElem ?_ fun e he he' => ?_
  · rw [sortRouting, List.length_take, length_scatterAddOnes, List.length_map, List.length_range]
    omega
  have he' : e < nLocal := by simpa using he'
  rw [← List.getD_eq_getElem _ 0 he, sortRouting, getD_take he',
    getD_scatterAddOnes (Nat.lt_succ_of_lt he'), List.map_map, List.count, List.countP_map,
    List.getElem_map, List.getElem_range]
  have hkey : ((· == e) ∘ Int.toNat ∘ mapId nLocal map) = fun id =>
      decide (mapId nLocal map id = e) := by
    funext id
    have := mapId_nonneg nLocal map id
    simp only [Function.comp_apply, beq_eq_decide]
    exact decide_eq_decide.mpr (by omega)
  rw [hkey]

/-- The fat experts of the calls that took a fallback tier. -/
def fallbackExperts (h : List (FusedMoeCall S P X I V W L × FatTier)) : ℕ :=
  (h.map fun r => if r.2 ∈ fatTiers then r.1.fatExperts else 0).sum

theorem fallbackExperts_append (h : List (FusedMoeCall S P X I V W L × FatTier))
    (c : FusedMoeCall S P X I V W L) (tier : FatTier) : fallbackExperts (h ++ [(c, tier)])
      = fallbackExperts h + if tier ∈ fatTiers then c.fatExperts else 0 := by
  simp [fallbackExperts]

/-- What the counters conserve. -/
structure Conserved (h : List (FusedMoeCall S P X I V W L × FatTier)) (s : FatState) : Prop where
  ways : s.prefillLayerCalls = s.thinCalls + s.rowTileCalls + s.fallbackSum
  reasons : s.prefillLayerCalls = s.reasonSum
  scatter : s.scatterCalls = s.directCalls
  runs : s.fatExpertRuns = fallbackExperts h

/-- A call that takes no fallback counts as one way and one reason, or as nothing. -/
theorem Conserved.of_thin {h : List (FusedMoeCall S P X I V W L × FatTier)} {s s' : FatState}
    (hs : Conserved h s) (c : FusedMoeCall S P X I V W L)
    (hs' : s' = s.entered ∨ s' = s.thin ∨ s' = s.rowTile) :
    Conserved (h ++ [(c, s'.lastFatFallback)]) s' := by
  obtain ⟨hways, hreasons, hscatter, hruns⟩ := hs
  have hnone : fallbackExperts (h ++ [(c, s'.lastFatFallback)]) = fallbackExperts h := by
    rw [fallbackExperts_append, if_neg, Nat.add_zero]
    rcases hs' with rfl | rfl | rfl <;> simp [FatState.entered, FatState.thin, FatState.rowTile,
      FatState.prefill, FatState.recordFatReason, fatTiers]
  rcases hs' with rfl | rfl | rfl
  · exact ⟨hways, hreasons, hscatter, hruns.trans hnone.symm⟩
  · refine ⟨?_, ?_, hscatter, hruns.trans hnone.symm⟩
    · change s.prefillLayerCalls + 1 = s.thinCalls + 1 + s.rowTileCalls + s.fallbackSum
      omega
    · rw [FatState.thin, FatState.reasonSum_recordFatReason]
      exact congrArg (· + 1) hreasons
  · refine ⟨?_, ?_, hscatter, hruns.trans hnone.symm⟩
    · change s.prefillLayerCalls + 1 = s.thinCalls + (s.rowTileCalls + 1) + s.fallbackSum
      omega
    · rw [FatState.rowTile, FatState.reasonSum_recordFatReason]
      exact congrArg (· + 1) hreasons

/-- A fallback counts as one way and one reason, and its fat experts as runs. -/
theorem Conserved.of_fallback {h : List (FusedMoeCall S P X I V W L × FatTier)} {s : FatState}
    (hs : Conserved h s) (c : FusedMoeCall S P X I V W L) {tier : FatTier} (ht : tier ∈ fatTiers)
    (reason : FatReason) (useKernel : Bool) :
    Conserved (h ++ [(c, tier)])
      ((s.prefill.recordFatTier tier reason).ran useKernel c.fatExperts) := by
  obtain ⟨hways, hreasons, hscatter, hruns⟩ := hs
  constructor
  · have hsum := FatState.fallbackSum_recordFatTier ht s.prefill reason
    change s.prefillLayerCalls + 1 = s.thinCalls + s.rowTileCalls
      + (s.prefill.recordFatTier tier reason).fallbackSum
    rw [hsum, hways]
    rfl
  · have hsum := FatState.reasonSum_recordFatTier s.prefill tier reason
    change s.prefillLayerCalls + 1 = (s.prefill.recordFatTier tier reason).reasonSum
    rw [hsum, hreasons]
    rfl
  · change s.scatterCalls + _ = s.directCalls + _
    rw [hscatter]
  · change s.fatExpertRuns + c.fatExperts = _
    rw [fallbackExperts_append, if_pos ht, hruns]

theorem conserved_resetCounters (s : FatState) :
    Conserved ([] : List (FusedMoeCall S P X I V W L × FatTier)) s.resetCounters where
  ways := by simp [FatState.resetCounters, FatState.fallbackSum]
  reasons := by simp [FatState.resetCounters, FatState.reasonSum]
  scatter := rfl
  runs := rfl

/-! ### Calls and resets -/

variable [Add V] [Zero V] [Mul I] [SMul W V]

/-- What a completed call does to the state. -/
theorem FusedMoeCall.apply_ok {c : FusedMoeCall S P X I V W L} {s s' : FatState} {out : Fin c.T → V}
    (h : c.apply s = .ok (out, s')) :
    (c.T ≤ c.cap ∧ s' = s.entered) ∨ (c.cap < c.T ∧ (s' = s.thin ∨ s' = s.rowTile ∨
      ∃ tier ∈ fatTiers, ∃ reason useKernel,
        s' = (s.prefill.recordFatTier tier reason).ran useKernel c.fatExperts)) := by
  simp only [FusedMoeCall.apply, applyExl3FusedMoe] at h
  split at h
  · rename_i ptrs cap hptrs hcap
    have hcap' : c.cap = cap := by rw [FusedMoeCall.cap, hcap, Option.getD_some]
    split at h
    · cases h
    · rename_i localIds hlocal
      split at h
      · rename_i hT
        cases h
        exact .inl ⟨hcap' ▸ hT, rfl⟩
      · rename_i hT
        refine .inr ⟨hcap' ▸ not_le.mp hT, ?_⟩
        simp only [applyPrefill] at h
        split at h
        · cases h
        · split at h
          · cases h
            exact .inl rfl
          · split at h
            · cases h
              exact .inr (.inl rfl)
            · obtain ⟨tier, ht, reason, useKernel, hs⟩ := applyFatFallback_ok (fun host hc => by
                split at hc
                · exact (Option.some.inj hc).symm
                · cases hc) h
              refine .inr (.inr ⟨tier, ht, reason, useKernel, ?_⟩)
              rw [mapTopkToLocal_ok hlocal, take_expertCount, List.countP_map] at hs
              rw [FusedMoeCall.fatExperts, hcap']
              exact hs
  · cases h

/-- The state of the counters after calls and resets, and the calls since the last reset with
the label that each left on its layer. A call that raises is not one of them. -/
inductive Reached : List (FusedMoeCall S P X I V W L × FatTier) → FatState → Prop
  /-- The module is loaded. -/
  | start : Reached [] FatState.zero
  /-- A call completes. -/
  | call {h : List (FusedMoeCall S P X I V W L × FatTier)} {s s' : FatState}
      {c : FusedMoeCall S P X I V W L} {out : Fin c.T → V} :
      Reached h s → c.apply s = .ok (out, s') → Reached (h ++ [(c, s'.lastFatFallback)]) s'
  /-- `reset_exl3_fat_diag_counters`. -/
  | reset {h : List (FusedMoeCall S P X I V W L × FatTier)} {s : FatState} :
      Reached h s → Reached [] s.resetCounters

/-- **Conservation of the receipts.** After any calls that completed and any resets, with any
flags, layers and routings, every large call counts as one way and as one reason, the kernel
scattered as often as it multiplied, the runs are the fat experts of the calls that took a
fallback tier, and a call whose tokens fit changes no counter. -/
theorem reached_conserved {h : List (FusedMoeCall S P X I V W L × FatTier)} {s : FatState}
    (hs : Reached h s) :
    Conserved h s ∧ ∀ (c : FusedMoeCall S P X I V W L) (out : Fin c.T → V) (s' : FatState),
      c.T ≤ c.cap → c.apply s = .ok (out, s') →
        s' = { s with lastFatFallback := .none, lastFatReason := .noFatExperts } := by
  constructor
  · induction hs with
    | start => exact conserved_resetCounters FatState.zero
    | call _ hcall ih =>
      rename_i c _ _
      rcases FusedMoeCall.apply_ok hcall with ⟨-, hs⟩ | ⟨-, hs | hs | hs⟩
      · exact ih.of_thin c (.inl hs)
      · exact ih.of_thin c (.inr (.inl hs))
      · exact ih.of_thin c (.inr (.inr hs))
      · obtain ⟨tier, ht, reason, useKernel, rfl⟩ := hs
        exact ih.of_fallback c ht reason useKernel
    | reset _ _ => exact conserved_resetCounters _
  · intro c out s' hT hcall
    rcases FusedMoeCall.apply_ok hcall with ⟨-, hs⟩ | ⟨hlt, -⟩
    · exact hs
    · omega

end Runs

/-! ### Two experts -/

theorem twoExperts_shared_suh : ∀ pack ∈ twoExperts.inners, pack.gate.suh = pack.up.suh := by
  simp [twoExperts, Layer.load, diagonalPack]

/-- The two experts with one temporary row. -/
noncomputable def loadedExperts : Layer (Fin 128 → ℤ) DensePacked where
  inners := twoExperts.inners
  sharedW13Suh := true
  ptrs := some twoExperts.inners
  fusedTemps := some 1
  shared_suh _ := twoExperts_shared_suh
  same_k := twoExperts.same_k
  ptrs_eq _ hl := (Option.mem_some_iff.mp hl).symm
  one_le_temps _ hrows := (Option.mem_some_iff.mp hrows).le

/-- Two tokens share the first expert, with the fat kernel. -/
noncomputable def sharedExpertCall : FusedMoeCall (Fin 128 → ℤ) DensePacked Row Row Row ℝ ℝ where
  T := 2
  K := 2
  env := kernelEnv
  ext := denseExt
  argsort := Argsort.stable
  x2d t i := t + i
  ids := ![![0, 1], ![0, 2]]
  weights _ _ := 1
  layer := loadedExperts
  expertMap := none
  limit := 10

theorem sharedExpertCall_apply (s : FatState) : ∃ out s', sharedExpertCall.apply s = .ok (out, s') ∧
    s'.lastFatFallback = .kernel ∧ s'.scatterCalls = s.scatterCalls + 1 := ⟨_, _, rfl, rfl, rfl⟩

/-- A call, a reset and the call again. -/
theorem reached_conserved_sharedExpert : ∃ s,
    Reached [(sharedExpertCall, .kernel)] s ∧ s.scatterCalls = 1 ∧
      Conserved [(sharedExpertCall, .kernel)] s := by
  obtain ⟨out, s, happly, -, -⟩ := sharedExpertCall_apply FatState.zero
  obtain ⟨out', s', happly', hkernel, hscatter⟩ := sharedExpertCall_apply s.resetCounters
  have hs' : Reached [(sharedExpertCall, .kernel)] s' := by
    rw [← hkernel]
    exact ((Reached.start.call happly).reset).call happly'
  exact ⟨s', hs', hscatter, (reached_conserved hs').1⟩

end Glm53Serve.Exl3
