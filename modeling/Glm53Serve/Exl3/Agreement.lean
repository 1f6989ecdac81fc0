import Glm53Serve.Exl3.RowTiles

/-!
# The fused apply agrees with the plain loop

Every way through `apply_exl3_fused_moe` adds, for every token, the weighted row of every
slot routed to a local expert, once; so does the loop.

## What is proved

* `applyExl3PythonLoop_apply` — the output of the loop, as a sum over the slots of a token.
* `applyExl3FusedMoe_eq_pythonLoop` — whatever the flags, a call that returns gives the
  output of the loop, and a call on a loaded layer returns.
-/

namespace Glm53Serve.Exl3

open Torch Segments

variable {S P X I V W L : Type*} {T K : ℕ}

/-! ### Counts -/

theorem length_le_one_of_nodup {α : Type*} {l : List α} (hl : l.Nodup)
    (h : ∀ a ∈ l, ∀ b ∈ l, a = b) : l.length ≤ 1 := by
  match l with
  | [] => exact Nat.zero_le 1
  | [a] => exact le_rfl
  | a :: b :: l =>
    have hab : a = b := h a (by simp) b (by simp)
    simp [hab] at hl

/-- A row names each local expert at most once, so an expert has at most one row a token. -/
theorem countP_slotKey_le {ids : Fin T → Fin K → ℤ} {inners : List (Pack S P)}
    {expertMap : Option ExpertMap} (hids : ∀ t, Function.Injective (ids t))
    (hmap : ∀ map ∈ expertMap, map.Injective) (hcov : ∀ t k, Covers expertMap (ids t k)) {e : ℕ}
    (he : e < inners.length) : (slots T K).countP (slotKey ids inners expertMap · = e) ≤ T := by
  have hrow : ∀ t : Fin T,
      ((List.finRange K).countP fun k => slotKey ids inners expertMap (t, k) = e) ≤ 1 := by
    intro t
    rw [List.countP_eq_length_filter]
    refine length_le_one_of_nodup ((List.nodup_finRange K).filter _) fun a ha b hb => ?_
    have ha := of_decide_eq_true (List.mem_filter.mp ha).2
    have hb := of_decide_eq_true (List.mem_filter.mp hb).2
    rw [slotKey, slotOf_eq_iff he] at ha hb
    exact hids t (loopExpert_injective hmap (hcov t a) (hcov t b) ha hb)
  rw [slots, List.countP_flatMap]
  calc _ ≤ ((List.finRange T).map fun _ => 1).sum := by
        refine List.sum_le_sum fun t _ => ?_
        rw [Function.comp_apply, List.countP_map]
        exact hrow t
    _ = T := by simp

/-- The rows of the hottest expert bound those of every expert. -/
theorem le_maxRowsOf {countsHost : Option (List ℕ)} {counts : List ℕ}
    (hhost : ∀ c ∈ countsHost, c = counts) {m : ℕ} (h : maxRowsOf countsHost counts = some m) :
    ∀ c ∈ counts, c ≤ m := by
  intro c hc
  cases countsHost with
  | none => exact (List.max?_eq_some_iff.mp h).2 c hc
  | some host =>
    rw [hhost host rfl, maxRowsOf, Option.some.injEq] at h
    have hmax : (0 :: counts).max? = some m := by rw [List.max?_cons', h]
    exact (List.max?_eq_some_iff.mp hmax).2 c (List.mem_cons_of_mem _ hc)

/-! ### The prefill -/

section Prefill

variable [AddCommMonoid V] [CommMagma I] [SMul W V]
variable {env : Env} {ext : Ext S P X I V W L} {x2d : Fin T → X} {ids : Fin T → Fin K → ℤ}
  {weights : Fin T → Fin K → W} {layer : Layer S P} {expertMap : Option ExpertMap} {limit : L}
  {r : Routing T W} {sorted : List (Fin T × Fin K)} {cap : ℕ}

theorem sharedW13Suh_of_useBatchedFat (h : (fatFlags env layer).useBatchedFat = true) :
    ∀ pack ∈ layer.inners, pack.gate.suh = pack.up.suh :=
  layer.shared_suh (Bool.and_eq_true_iff.mp h).2

/-- Batching implies that the counts are on the host. -/
theorem useSortedFat_of_useBatchedFat (h : (fatFlags env layer).useBatchedFat = true) :
    (fatFlags env layer).useSortedFat = true := by
  have hwant := (Bool.and_eq_true_iff.mp h).1
  simp only [fatFlags, hwant, Bool.or_true]

/-- The experts of the legacy fallback are those that do not fit. -/
theorem mem_fat
    (hr : r.Sorts weights (slotKey ids layer.inners expertMap) layer.inners.length sorted)
    {e : ℕ} (he : e < layer.inners.length) :
    decide (e ∈ (List.range (r.expertCount.take layer.inners.length).length).filter fun e =>
      cap < (r.expertCount.take layer.inners.length).getD e 0)
    = !decide (r.expertCount.getD e 0 ≤ cap) := by
  rw [Bool.eq_iff_iff, decide_eq_true_eq, List.mem_filter, List.mem_range, length_counts_take hr,
    getD_take he]
  simp only [he, true_and, decide_eq_true_eq, Bool.not_eq_true', decide_eq_false_iff_not, not_le]

omit [AddCommMonoid V] in
theorem routedRows_of_nil :
    routedRows ext x2d ids weights layer.inners expertMap limit
      (fun e => decide (e ∈ ([] : List ℕ))) = [] := by
  refine List.flatMap_eq_nil_iff.mpr fun p _ => ?_
  cases loopExpert layer.inners.length expertMap (ids p.1 p.2) <;> simp [slotRows]

/-- Every fallback adds the rows of the experts that the launch skipped. -/
theorem applyFatFallback_eq (hext : ext.Contract)
    (hr : r.Sorts weights (slotKey ids layer.inners expertMap) layer.inners.length sorted)
    {countsHost : Option (List ℕ)}
    (hhost : ∀ c ∈ countsHost, c = r.expertCount.take layer.inners.length)
    {out : Fin T → V} {s : FatState} {st' : (Fin T → V) × FatState}
    (hrun : applyFatFallback env ext x2d ids weights layer expertMap limit cap r countsHost out s
      = .ok st') :
    st'.1 = indexAdd out (routedRows ext x2d ids weights layer.inners expertMap limit
      fun e => !decide (r.expertCount.getD e 0 ≤ cap)) := by
  simp only [applyFatFallback] at hrun
  split at hrun
  · rename_i hbatched
    cases countsHost with
    | none => cases hrun
    | some host =>
      rw [hhost host rfl] at hrun
      exact applyExl3BatchedFat_eq hext hr (sharedW13Suh_of_useBatchedFat hbatched)
        layer.same_k hrun
  · split at hrun
    · cases countsHost with
      | none => cases hrun
      | some host =>
        rw [hhost host rfl] at hrun
        exact applyExl3SortedFat_eq hr hrun
    · rw [← routedRows_congr ext x2d ids weights layer.inners expertMap limit fun e => mem_fat hr]
      split at hrun
      · cases hrun
        rw [applyExl3PythonLoop_eq]
        rfl
      · rename_i hempty
        cases hrun
        rw [List.eq_nil_of_length_eq_zero (not_not.mp hempty), routedRows_of_nil, indexAdd_nil]

theorem applyFatFallback_returns
    (hr : r.Sorts weights (slotKey ids layer.inners expertMap) layer.inners.length sorted)
    {countsHost : Option (List ℕ)}
    (hhost : (fatFlags env layer).useSortedFat = true →
      countsHost = some (r.expertCount.take layer.inners.length))
    (hkernel : env.fatKernelEnabled → ext.HasFatKernel env ∧
      ∀ pack ∈ layer.inners, pack.HasKernelBits)
    (hscratch : (fatFlags env layer).useBatchedFat = true → env.scratch.configured ≠ none)
    (out : Fin T → V) (s : FatState) :
    ∃ st, applyFatFallback env ext x2d ids weights layer expertMap limit cap r countsHost out s
      = .ok st := by
  have hlen := (length_counts_take hr).le
  simp only [applyFatFallback]
  split
  · rename_i hbatched
    rw [hhost (useSortedFat_of_useBatchedFat hbatched)]
    have hwant : (fatFlags env layer).useFatKernel = true → env.fatKernelEnabled = true :=
      fun hu => (Bool.and_eq_true_iff.mp hu).2
    refine (applyExl3BatchedFat_cases (fun hu => (hkernel (hwant hu)).1) hlen _ _ _ _ _ _).2.1
      (hscratch hbatched) ?_
    rintro hu ⟨e, he, -, hpack⟩
    have hmem := List.getElem?_eq_getElem (he.trans_le hlen)
    exact hpack _ hmem ((hkernel (hwant hu)).2 _ (List.getElem_mem _))
  · split
    · rename_i hsorted
      rw [hhost hsorted]
      exact applyExl3SortedFat_returns hlen _ _ _ _ _ _
    · split <;> exact ⟨_, rfl⟩

/-- A batch larger than the temporary rows: thin, tiled or with a fallback. -/
theorem applyPrefill_eq (hext : ext.Contract)
    (hr : r.Sorts weights (slotKey ids layer.inners expertMap) layer.inners.length sorted)
    (hcap : 1 ≤ cap) {s : FatState} {st' : (Fin T → V) × FatState}
    (hrun : applyPrefill env ext x2d ids weights layer layer.inners expertMap limit cap r s
      = .ok st') :
    st'.1 = indexAdd 0 (routedRows ext x2d ids weights layer.inners expertMap limit
      fun _ => true) := by
  have hhost : ∀ c ∈ (if (fatFlags env layer).useBatchedFat && !(fatFlags env layer).useRowTiles
        || (fatFlags env layer).useSortedFat then some (r.expertCount.take layer.inners.length)
      else none), c = r.expertCount.take layer.inners.length := by
    intro c hc
    split at hc
    · exact (Option.some.inj hc).symm
    · cases hc
  -- launched early or not, the output after the launch is the same
  have hlaunch : ∀ launched : Bool, (if launched then
        if launched then exl3MoeLaunch ext x2d 0 r.expertCount r.tokenSorted r.weightSorted cap
          layer.inners limit else 0
      else exl3MoeLaunch ext x2d (if launched then exl3MoeLaunch ext x2d 0 r.expertCount
        r.tokenSorted r.weightSorted cap layer.inners limit else 0) r.expertCount r.tokenSorted
        r.weightSorted cap layer.inners limit)
      = indexAdd 0 (routedRows ext x2d ids weights layer.inners expertMap limit
          fun e => decide (r.expertCount.getD e 0 ≤ cap)) := by
    intro launched
    rw [← exl3MoeLaunch_eq hext hr]
    cases launched <;> rfl
  simp only [applyPrefill] at hrun
  split at hrun
  · cases hrun
  rename_i maxRows hmaxRows
  have hmax : ∀ e < layer.inners.length, r.expertCount.getD e 0 ≤ maxRows := by
    intro e he
    have he' : e < (r.expertCount.take layer.inners.length).length := by
      rwa [length_counts_take hr]
    rw [← getD_take he, List.getD_eq_getElem _ _ he']
    exact le_maxRowsOf hhost hmaxRows _ (List.getElem_mem he')
  split at hrun
  · rename_i hthin
    cases hrun
    rw [hlaunch, routedRows_congr]
    intro e he
    exact decide_eq_true ((hmax e he).trans hthin)
  · split at hrun
    · rename_i htiles
      cases hrun
      simp only [htiles, Bool.not_true, Bool.and_false, Bool.false_eq_true, ↓reduceIte]
      exact exl3MoeRowTiles_eq hext hr hcap hmax 0
    · rw [applyFatFallback_eq hext hr hhost hrun, hlaunch]
      exact indexAdd_routedRows_split ext x2d ids weights layer.inners expertMap limit 0 _

theorem applyPrefill_returns (hinners : layer.inners ≠ [])
    (hr : r.Sorts weights (slotKey ids layer.inners expertMap) layer.inners.length sorted)
    (hkernel : env.fatKernelEnabled → ext.HasFatKernel env ∧
      ∀ pack ∈ layer.inners, pack.HasKernelBits)
    (hscratch : (fatFlags env layer).useBatchedFat = true → env.scratch.configured ≠ none)
    (s : FatState) :
    ∃ st, applyPrefill env ext x2d ids weights layer layer.inners expertMap limit cap r s
      = .ok st := by
  have hmax : ∀ host, maxRowsOf host (r.expertCount.take layer.inners.length) ≠ none := by
    intro host hnone
    cases host with
    | some host => cases hnone
    | none =>
      have hlen := length_counts_take hr
      rw [List.max?_eq_none_iff.mp hnone] at hlen
      exact hinners (List.eq_nil_of_length_eq_zero hlen.symm)
  simp only [applyPrefill]
  split
  · rename_i hnone
    exact absurd hnone (hmax _)
  · split
    · exact ⟨_, rfl⟩
    · split
      · exact ⟨_, rfl⟩
      · refine applyFatFallback_returns hr (fun hsorted => ?_) hkernel hscratch _ _
        rw [hsorted, Bool.or_true]
        rfl

end Prefill

/-! ### The output of the loop -/

section Output

variable [AddCommMonoid V] [CommMagma I] [SMul W V]

/-- What one slot adds to the output of its token. -/
def slotValue (ext : Ext S P X I V W L) (x2d : Fin T → X) (ids : Fin T → Fin K → ℤ)
    (weights : Fin T → Fin K → W) (inners : List (Pack S P)) (expertMap : Option ExpertMap)
    (limit : L) (t : Fin T) (k : Fin K) : V :=
  match (loopExpert inners.length expertMap (ids t k)).bind (inners[·]?) with
  | none => 0
  | some pack => weights t k • ext.expert limit pack (x2d t)

variable (ext : Ext S P X I V W L) (x2d : Fin T → X) (ids : Fin T → Fin K → ℤ)
  (weights : Fin T → Fin K → W) (inners : List (Pack S P)) (expertMap : Option ExpertMap)
  (limit : L)

omit [CommMagma I] [SMul W V] in
theorem sum_flatMap {α : Type*} (l : List α) (f : α → List V) :
    (l.flatMap f).sum = (l.map fun a => (f a).sum).sum := by
  rw [List.flatMap_def, List.sum_flatten, List.map_map]
  rfl

/-- The output of the loop at a token is the sum over its slots. -/
theorem applyExl3PythonLoop_apply (t : Fin T) :
    applyExl3PythonLoop ext x2d ids weights inners expertMap limit none none t
      = ∑ k, slotValue ext x2d ids weights inners expertMap limit t k := by
  have hslot : ∀ p : Fin T × Fin K,
      (((slotRows ext x2d weights inners limit (fun _ => true)
        (loopExpert inners.length expertMap (ids p.1 p.2)) p).filter (·.1 = t)).map Prod.snd).sum
      = if p.1 = t then slotValue ext x2d ids weights inners expertMap limit p.1 p.2 else 0 := by
    intro p
    rw [slotValue]
    cases h : loopExpert inners.length expertMap (ids p.1 p.2) with
    | none => simp [slotRows]
    | some e =>
      by_cases ht : p.1 = t <;> simp [slotRows, loopExpert_lt h, Ext.expertRows, ht]
  rw [applyExl3PythonLoop_eq, indexAdd_apply]
  simp only [Option.getD_none, Pi.zero_apply, zero_add, Option.all_none, routedRows,
    List.filter_flatMap, List.map_flatMap, sum_flatMap, hslot, slots, List.map_map]
  calc _ = ∑ t' : Fin T, ∑ k : Fin K,
        if t' = t then slotValue ext x2d ids weights inners expertMap limit t' k else 0 := by
        simp only [Fin.sum_univ_def]
        rfl
    _ = _ := by
        rw [Finset.sum_eq_single t (fun t' _ ht => by simp [ht]) (by simp)]
        simp

end Output

/-! ### The agreement -/

section Agreement

variable [AddCommMonoid V] [CommMagma I] [SMul W V]

/-- The routing of the fused path, where it is not refused: the keys of the slots. -/
theorem mapTopkToLocal_eq {ids : Fin T → Fin K → ℤ} {inners : List (Pack S P)}
    {expertMap : Option ExpertMap} (hcov : ∀ t k, Covers expertMap (ids t k)) :
    mapTopkToLocal (reshape ids) inners.length expertMap
      = if ∀ map ∈ expertMap, map.pinned = true then
          .ok ((slots T K).map fun p => (slotKey ids inners expertMap p : ℤ))
        else .error .mapNotPinned := by
  have hmap : (reshape ids).map (mapId inners.length (expertMap.map ExpertMap.values))
      = (slots T K).map fun p => (slotKey ids inners expertMap p : ℤ) := by
    rw [reshape, List.map_map]
    exact List.map_congr_left fun p _ => mapId_eq (hcov p.1 p.2)
  cases expertMap with
  | none =>
    rw [if_pos (by simp), ← hmap]
    rfl
  | some map =>
    rw [← hmap]
    cases hp : map.pinned <;> simp [mapTopkToLocal, hp]

/-- What a call needs to return: a loaded layer with its fused state, the expert map on the
device, the symbols and the bits of the fat kernel where it is enabled, and a number of scratch
rows where the fat experts are batched. -/
structure Ready (env : Env) (ext : Ext S P X I V W L) (layer : Layer S P)
    (expertMap : Option ExpertMap) : Prop where
  inners : layer.inners ≠ []
  ptrs : layer.ptrs.isSome
  temps : layer.fusedTemps.isSome
  pinned : ∀ map ∈ expertMap, map.pinned = true
  kernel : env.fatKernelEnabled → ext.HasFatKernel env ∧ ∀ pack ∈ layer.inners, pack.HasKernelBits
  scratch : (fatFlags env layer).useBatchedFat = true → env.scratch.configured ≠ none

variable (env : Env) (ext : Ext S P X I V W L) (argsort : Argsort) (x2d : Fin T → X)
  (ids : Fin T → Fin K → ℤ) (weights : Fin T → Fin K → W) (layer : Layer S P)
  (expertMap : Option ExpertMap) (limit : L) (s : FatState)

/-- Where the rows name no expert twice and the map covers them, a call of the fused apply that
returns gives the output of the loop, whatever the flags, the temporary rows and the routing;
it returns where it is ready; and every slot routed to a local expert counts once. -/
theorem applyExl3FusedMoe_eq_pythonLoop (hext : ext.Contract)
    (hids : ∀ t, Function.Injective (ids t)) (hmap : ∀ map ∈ expertMap, map.Injective)
    (hcov : ∀ t k, Covers expertMap (ids t k)) :
    (∀ out s', applyExl3FusedMoe env ext argsort x2d ids weights layer expertMap limit s
        = .ok (out, s') →
      out = applyExl3PythonLoop ext x2d ids weights layer.inners expertMap limit none none) ∧
    (Ready env ext layer expertMap →
      ∃ s', applyExl3FusedMoe env ext argsort x2d ids weights layer expertMap limit s
        = .ok (applyExl3PythonLoop ext x2d ids weights layer.inners expertMap limit none none,
            s')) ∧
    ∀ t, applyExl3PythonLoop ext x2d ids weights layer.inners expertMap limit none none t
      = ∑ k, slotValue ext x2d ids weights layer.inners expertMap limit t k := by
  have hsorts := sorts_sortRouting argsort layer.inners.length weights
    (slotKey ids layer.inners expertMap) fun p => slotOf_le _ _ _
  have hret : ∀ out s', applyExl3FusedMoe env ext argsort x2d ids weights layer expertMap limit s
        = .ok (out, s') →
      out = applyExl3PythonLoop ext x2d ids weights layer.inners expertMap limit none none := by
    intro out s' hrun
    rw [applyExl3PythonLoop_eq]
    simp only [applyExl3FusedMoe, mapTopkToLocal_eq hcov] at hrun
    split at hrun
    · rename_i ptrs cap hptrs hcap
      cases layer.ptrs_eq ptrs hptrs
      split_ifs at hrun with hpinned hsingle
      · cases hrun
        rw [exl3MoeLaunch_eq hext hsorts, routedRows_congr]
        · rfl
        -- no expert has more rows than there are tokens
        intro e he
        refine decide_eq_true (le_trans (le_of_eq ?_)
          ((countP_slotKey_le hids hmap hcov he).trans hsingle))
        rw [hsorts.counts e he.le, hsorts.perm.countP_eq]
      · exact applyPrefill_eq hext hsorts (layer.one_le_temps cap hcap) hrun
    · cases hrun
  refine ⟨hret, fun hready => ?_, fun t => applyExl3PythonLoop_apply ext x2d ids weights
    layer.inners expertMap limit t⟩
  have hrun : ∃ st, applyExl3FusedMoe env ext argsort x2d ids weights layer expertMap limit s
      = .ok st := by
    obtain ⟨ptrs, hptrs⟩ := Option.isSome_iff_exists.mp hready.ptrs
    obtain ⟨cap, hcap⟩ := Option.isSome_iff_exists.mp hready.temps
    cases layer.ptrs_eq ptrs hptrs
    simp only [applyExl3FusedMoe, hptrs, hcap, mapTopkToLocal_eq hcov]
    rw [if_pos hready.pinned]
    simp only
    split
    · exact ⟨_, rfl⟩
    · exact applyPrefill_returns hready.inners hsorts hready.kernel hready.scratch _
  obtain ⟨⟨out, s'⟩, hst⟩ := hrun
  exact ⟨s', by rw [hst, hret out s' hst]⟩

end Agreement

/-! ### Two experts over rows of 128 -/

/-- A row of one Hadamard block. -/
abbrev Row := Fin 128 → ℝ

/-- A decoded trellis and the signs behind it. -/
structure DensePacked where
  matrix : Fin 128 → Fin 128 → ℝ
  svh : Row

/-- The Hadamard transform of order 128. -/
noncomputable def had128 (x : Row) : Row := fun i =>
  (∑ j : Fin 128, (-1) ^ (Nat.bits (i.val &&& j.val)).count true * x j) / √128

noncomputable def hadSuh (suh : Fin 128 → ℤ) (x : Row) : Row := had128 fun i => suh i * x i

noncomputable def denseGemm (p : DensePacked) (_k : ℕ) (h : Row) : Row := fun j =>
  had128 (fun j => ∑ i, h i * p.matrix i j) j * p.svh j

/-- The extension but for the fused kernel and the scatter. -/
noncomputable def denseBase : Ext (Fin 128 → ℤ) DensePacked Row Row Row ℝ ℝ where
  forward13 m x := denseGemm m.packed m.k (hadSuh m.suh x)
  forward2 m a := denseGemm m.packed m.k (hadSuh m.suh a)
  hadR128 := hadSuh
  hadR128Act := hadSuh
  hgemm13 := denseGemm
  hgemm2 := denseGemm
  sigmoid g i := 1 / (1 + Real.exp (-g i))
  clampMax limit g i := min (g i) limit
  clamp limit u i := min (max (u i) (-limit)) limit
  exl3FatGemm := some fun p k h => (denseGemm p.1 k h, denseGemm p.2 k h)
  exl3FatGemmPipe := none
  exl3FatGemmScatter := none
  exl3FatGemmPipeScatter := none
  exl3Moe _ out := out
  acceptsNumActive := true

noncomputable def denseExt : Ext (Fin 128 → ℤ) DensePacked Row Row Row ℝ ℝ :=
  { denseBase with
    exl3FatGemmScatter := some fun _ h2 p out tokens scale k =>
      indexAdd out (denseBase.scatterRows h2 p tokens scale k)
    exl3Moe := fun c out => indexAdd out (denseBase.moeRows c) }

theorem denseExt_contract : denseExt.Contract where
  forward13 _ _ := rfl
  forward2 _ _ := rfl
  fatGemm gemm h := by
    cases h
    exact fun _ _ _ => rfl
  fatGemmPipe _ h := by cases h
  fatGemmScatter gemm h := by
    cases h
    exact fun _ _ _ _ _ _ => rfl
  fatGemmPipeScatter _ h := by cases h
  moe _ _ _ := rfl

/-- An expert whose matrices are multiples of the identity. -/
noncomputable def diagonalPack (a : ℝ) : Pack (Fin 128 → ℤ) DensePacked :=
  let m : LinearExl3 (Fin 128 → ℤ) DensePacked :=
    { suh := fun i => if i.val % 2 = 0 then 1 else -1
      packed := ⟨fun i j => if i = j then a else 0, fun _ => 1⟩
      k := 4 }
  { gate := m, up := m, down := m }

/-- One temporary row, and the fat kernel. -/
def kernelEnv : Env where
  moeRowTile := none
  fatSorted := none
  fatBatched := none
  fatKernel := some ['1']
  fatPipeline := none
  tempRows := some ['1']
  scratch := ⟨none, some ['2', '0', '4', '8']⟩

noncomputable def twoExperts : Layer (Fin 128 → ℤ) DensePacked :=
  Layer.load kernelEnv [diagonalPack 1, diagonalPack 3] (by simp [diagonalPack])

def FatState.zero : FatState where
  prefillLayerCalls := 0
  thinCalls := 0
  rowTileCalls := 0
  fatExpertRuns := 0
  directCalls := 0
  scatterCalls := 0
  fallbackCalls _ := 0
  fallbackReasons _ := 0
  lastFatFallback := .none
  lastFatReason := .noFatExperts

/-- Two tokens share the first expert, which is then fat; the expert `1` is on another rank. -/
theorem applyExl3FusedMoe_eq_pythonLoop_twoExperts : ∃ s',
    applyExl3FusedMoe kernelEnv denseExt Argsort.stable (fun t i => t + i) ![![0, 2], ![1, 0]]
        ![![1, 2], ![3, 4]] twoExperts (some ⟨[0, -1, 1], true⟩) 10 FatState.zero
      = .ok (applyExl3PythonLoop denseExt (fun (t : Fin 2) i => t + i) ![![0, 2], ![1, 0]]
          ![![1, 2], ![3, 4]] twoExperts.inners (some ⟨[0, -1, 1], true⟩) 10 none none, s') := by
  refine (applyExl3FusedMoe_eq_pythonLoop kernelEnv denseExt Argsort.stable _ _ _ twoExperts _ 10
    FatState.zero denseExt_contract (by decide) ?_ ?_).2.1 ?_
  · intro map hmap
    cases hmap
    unfold ExpertMap.Injective
    decide
  · intro t k map hmap
    cases hmap
    revert t k
    decide
  · refine ⟨List.cons_ne_nil _ _, by decide, by decide, fun map hmap => ?_,
      fun _ => ⟨⟨?_, fun _ => ⟨rfl, rfl⟩⟩, ?_⟩, fun _ => by decide⟩
    · cases hmap
      rfl
    · exact fun h => absurd h (by decide)
    · simp [twoExperts, Layer.load, diagonalPack, Pack.HasKernelBits, kernelBits]

end Glm53Serve.Exl3
