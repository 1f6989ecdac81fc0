import Glm53Serve.Exl3.FusedMoe

/-!
# What each way through the fused apply adds

The sorted buffer is a permutation of the slots of the routing in which the slots of an
expert are the segment that the counts give (`Routing.Sorts`). A launch adds the rows of the
slots of the experts that fit the temporary rows, and a fallback those of the others.

## What is proved

* `sorts_sortRouting` — the sort gives such a buffer.
* `exl3MoeLaunch_eq` — a launch adds the rows of the experts that fit.
* `applyExl3SortedFat_eq`, `applyExl3BatchedFat_eq` — the fallbacks add the rows of the
  experts that do not.
* `applyExl3BatchedFat_cases` — where the batched one raises.
-/

namespace Glm53Serve.Exl3

open Torch Segments

variable {S P X I V W L : Type*} {T K : ℕ}

/-! ### What the overlay relies on -/

/-- A launch whose counts cover the buffer. -/
structure MoeCall.WellFormed (c : MoeCall T S P X W L) : Prop where
  length_expertCount : c.expertCount.length = c.ptrs.length + 1
  length_tokenSorted : c.tokenSorted.length = c.expertCount.sum
  length_weightSorted : c.weightSorted.length = c.expertCount.sum

section Contract

variable [AddCommMonoid V] [CommMagma I] [SMul W V]

/-- The rows a launch adds: of every expert that fits, those of its segment. The slot after
the last expert is not one of an expert. -/
def Ext.moeRows (ext : Ext S P X I V W L) (c : MoeCall T S P X W L) : List (Fin T × V) :=
  (List.range c.ptrs.length).flatMap fun e =>
    match c.ptrs[e]? with
    | none => []
    | some pack =>
      if c.expertCount.getD e 0 ≤ c.tempRows then
        ext.expertRows c.limit pack c.xh
          ((seg c.expertCount e c.tokenSorted).zip (seg c.expertCount e c.weightSorted))
      else []

/-- `down_out.mul_(weights)` and `index_add_`. -/
def Ext.scatterRows (ext : Ext S P X I V W L) (h2 : List I) (packed : P) (tokens : List (Fin T))
    (scale : List W) (k : ℕ) : List (Fin T × V) :=
  tokens.zip (List.zipWith (fun y w => w • y) (h2.map (ext.hgemm2 packed k)) scale)

/-- At the bits that it is compiled for, a fat GEMM is the reconstructed matrices. -/
def Ext.IsFatGemm (ext : Ext S P X I V W L) (gemm : P × P → ℕ → X → I × I) : Prop :=
  ∀ p q h, gemm (p, q) kernelBits h = (ext.hgemm13 p kernelBits h, ext.hgemm13 q kernelBits h)

/-- At these bits, a scattering one adds the weighted rows of the reconstructed matrix. -/
def Ext.IsFatGemmScatter (ext : Ext S P X I V W L)
    (gemm : (T : ℕ) → List I → P → (Fin T → V) → List (Fin T) → List W → ℕ → Fin T → V) : Prop :=
  ∀ T h2 p out tokens scale,
    gemm T h2 p out tokens scale kernelBits
      = indexAdd out (ext.scatterRows h2 p tokens scale kernelBits)

/-- What the overlay relies on: `LinearEXL3.forward` is the transform and the matrix, the fat
GEMMs are the reconstructed matrix, and the fused kernel adds the rows of the experts that
fit. -/
structure Ext.Contract (ext : Ext S P X I V W L) : Prop where
  forward13 : ∀ m x, ext.forward13 m x = ext.hgemm13 m.packed m.k (ext.hadR128 m.suh x)
  forward2 : ∀ m a, ext.forward2 m a = ext.hgemm2 m.packed m.k (ext.hadR128Act m.suh a)
  fatGemm : ∀ gemm ∈ ext.exl3FatGemm, ext.IsFatGemm gemm
  fatGemmPipe : ∀ gemm ∈ ext.exl3FatGemmPipe, ext.IsFatGemm gemm
  fatGemmScatter : ∀ gemm ∈ ext.exl3FatGemmScatter, ext.IsFatGemmScatter gemm
  fatGemmPipeScatter : ∀ gemm ∈ ext.exl3FatGemmPipeScatter, ext.IsFatGemmScatter gemm
  moe : ∀ {T : ℕ} (c : MoeCall T S P X W L) (out : Fin T → V), c.WellFormed →
    ext.exl3Moe c out = indexAdd out (ext.moeRows c)

end Contract

/-! ### The sorted buffer -/

/-- The local expert of an id, or the slot after the last one. -/
def slotOf (nExp : ℕ) (expertMap : Option ExpertMap) (id : ℤ) : ℕ :=
  (loopExpert nExp expertMap id).getD nExp

theorem slotOf_le (nExp : ℕ) (expertMap : Option ExpertMap) (id : ℤ) :
    slotOf nExp expertMap id ≤ nExp := by
  unfold slotOf
  cases h : loopExpert nExp expertMap id with
  | none => rfl
  | some e => exact (loopExpert_lt h).le

/-- Below the last slot, the slot is that of the expert. -/
theorem slotOf_eq_iff {nExp : ℕ} {expertMap : Option ExpertMap} {id : ℤ} {e : ℕ} (he : e < nExp) :
    slotOf nExp expertMap id = e ↔ loopExpert nExp expertMap id = some e := by
  unfold slotOf
  cases loopExpert nExp expertMap id with
  | none => simp [he.ne']
  | some e' => simp

/-- The buffer holds the slots in the order `sorted`, by the key of a slot, and the counts
are those of the keys. -/
structure Routing.Sorts (r : Routing T W) (weights : Fin T → Fin K → W)
    (key : Fin T × Fin K → ℕ) (nExp : ℕ) (sorted : List (Fin T × Fin K)) : Prop where
  perm : sorted.Perm (slots T K)
  pairwise : sorted.Pairwise fun a b => key a ≤ key b
  tokens : r.tokenSorted = sorted.map Prod.fst
  weights : r.weightSorted = sorted.map fun p => weights p.1 p.2
  length_counts : r.expertCount.length = nExp + 1
  counts : ∀ e ≤ nExp, r.expertCount.getD e 0 = sorted.countP (key · = e)
  sum_counts : r.expertCount.sum = sorted.length

/-- The sort of the fused path. -/
theorem sorts_sortRouting (argsort : Argsort) (nExp : ℕ) (weights : Fin T → Fin K → W)
    (key : Fin T × Fin K → ℕ) (hkey : ∀ p, key p ≤ nExp) :
    (sortRouting argsort nExp ((slots T K).map fun p => (key p : ℤ)) weights).Sorts weights key
      nExp (indexSelect (slots T K) (argsort.order ((slots T K).map fun p => (key p : ℤ)))) := by
  have hperm := argsort.perm ((slots T K).map fun p => (key p : ℤ))
  rw [List.length_map] at hperm
  have hsorted := argsort.sorted ((slots T K).map fun p => (key p : ℤ))
  rw [indexSelect_map, List.pairwise_map] at hsorted
  have hslots := perm_indexSelect (slots T K) hperm
  have htoken : ((List.finRange T).flatMap fun t => List.replicate K t)
      = (slots T K).map Prod.fst := by
    rw [slots, List.map_flatMap]
    refine List.flatMap_congr fun t _ => ?_
    simp [Function.comp_def]
  have hnat : ((slots T K).map fun p => (key p : ℤ)).map Int.toNat = (slots T K).map key := by
    simp [Function.comp_def]
  constructor
  · exact hslots
  · exact hsorted.imp fun h => by exact_mod_cast h
  · rw [sortRouting, htoken, indexSelect_map]
  · rw [sortRouting, reshape, indexSelect_map]
  · rw [sortRouting, length_scatterAddOnes]
  · intro e he
    rw [sortRouting, hnat, getD_scatterAddOnes (Nat.lt_succ_of_le he), List.count,
      List.countP_map, hslots.countP_eq]
    rfl
  · rw [sortRouting, hnat, sum_scatterAddOnes, List.length_map, hslots.length_eq]
    intro i hi
    obtain ⟨p, -, rfl⟩ := List.mem_map.mp hi
    exact Nat.lt_succ_of_le (hkey p)

section Sorted

variable {r : Routing T W} {weights : Fin T → Fin K → W} {key : Fin T × Fin K → ℕ} {nExp : ℕ}
  {sorted : List (Fin T × Fin K)}

/-- The segment of a local expert holds its slots. -/
theorem Routing.Sorts.seg_eq (h : r.Sorts weights key nExp sorted) {e : ℕ} (he : e < nExp) :
    seg r.expertCount e sorted = sorted.filter (key · = e) :=
  seg_of_sorted h.pairwise fun i hi => h.counts i (hi.trans he.le)

/-- The weighted tokens of a local expert. -/
def assigned (weights : Fin T → Fin K → W) (key : Fin T × Fin K → ℕ)
    (sorted : List (Fin T × Fin K)) (e : ℕ) : List (Fin T × W) :=
  (sorted.filter (key · = e)).map fun p => (p.1, weights p.1 p.2)

theorem Routing.Sorts.zip_seg (h : r.Sorts weights key nExp sorted) {e : ℕ} (he : e < nExp) :
    (seg r.expertCount e r.tokenSorted).zip (seg r.expertCount e r.weightSorted)
      = assigned weights key sorted e := by
  rw [h.tokens, h.weights, seg_map, seg_map, h.seg_eq he, List.zip_map']
  rfl

theorem Routing.Sorts.length_assigned (h : r.Sorts weights key nExp sorted) {e : ℕ}
    (he : e < nExp) : (assigned weights key sorted e).length = r.expertCount.getD e 0 := by
  rw [assigned, List.length_map, h.counts e he.le, List.countP_eq_length_filter]

end Sorted

/-! ### What each way adds -/

section Ways

variable [AddCommMonoid V] [CommMagma I] [SMul W V]
variable (ext : Ext S P X I V W L) (x2d : Fin T → X) (ids : Fin T → Fin K → ℤ)
  (weights : Fin T → Fin K → W) (inners : List (Pack S P)) (expertMap : Option ExpertMap)
  (limit : L)

/-- The key by which the slots are sorted. -/
def slotKey (p : Fin T × Fin K) : ℕ := slotOf inners.length expertMap (ids p.1 p.2)

/-- The rows of the local expert `e`. -/
def localRows (sorted : List (Fin T × Fin K)) (e : ℕ) : List (Fin T × V) :=
  match inners[e]? with
  | none => []
  | some pack =>
    ext.expertRows limit pack x2d (assigned weights (slotKey ids inners expertMap) sorted e)

omit [AddCommMonoid V] in
/-- The rows of the local experts that are kept, expert by expert, are those of the slots,
slot by slot. -/
theorem localRows_perm {sorted : List (Fin T × Fin K)} (hs : sorted.Perm (slots T K))
    (keep : ℕ → Bool) :
    ((List.range inners.length).flatMap fun e =>
      if keep e then localRows ext x2d ids weights inners expertMap limit sorted e else []).Perm
      (routedRows ext x2d ids weights inners expertMap limit keep) := by
  have hexpert : ∀ e ∈ List.range inners.length,
      (if keep e then localRows ext x2d ids weights inners expertMap limit sorted e else [])
        = (sorted.filter (slotKey ids inners expertMap · = e)).flatMap
            (slotRows ext x2d weights inners limit keep (some e)) := by
    intro e he
    have he := List.mem_range.mp he
    rw [flatMap_slotRows ext x2d weights inners limit he, localRows, List.getElem?_eq_getElem he]
    rfl
  rw [List.flatMap_congr hexpert]
  refine (flatMap_filter_perm List.nodup_range sorted _ _).trans ?_
  refine (hs.flatMap_right _).trans (List.Perm.of_eq ?_)
  refine List.flatMap_congr fun p _ => ?_
  rw [slotKey, slotOf]
  cases h : loopExpert inners.length expertMap (ids p.1 p.2) with
  | none => simp [slotRows]
  | some e => simp [loopExpert_lt h]

omit [AddCommMonoid V] in
theorem routedRows_congr {keep keep' : ℕ → Bool} (h : ∀ e < inners.length, keep e = keep' e) :
    routedRows ext x2d ids weights inners expertMap limit keep
      = routedRows ext x2d ids weights inners expertMap limit keep' := by
  refine List.flatMap_congr fun p _ => ?_
  cases hp : loopExpert inners.length expertMap (ids p.1 p.2) with
  | none => rfl
  | some e => simp only [slotRows, h e (loopExpert_lt hp)]

variable {ext x2d ids weights inners expertMap limit}
variable {r : Routing T W} {sorted : List (Fin T × Fin K)}

/-- A launch over the whole buffer adds the rows of the experts that fit. -/
theorem exl3MoeLaunch_eq (hext : ext.Contract)
    (hr : r.Sorts weights (slotKey ids inners expertMap) inners.length sorted) (cap : ℕ)
    (out : Fin T → V) :
    exl3MoeLaunch ext x2d out r.expertCount r.tokenSorted r.weightSorted cap inners limit
      = indexAdd out (routedRows ext x2d ids weights inners expertMap limit
          fun e => r.expertCount.getD e 0 ≤ cap) := by
  rw [exl3MoeLaunch, hext.moe]
  · refine indexAdd_perm _ (List.Perm.trans (List.Perm.of_eq ?_)
      (localRows_perm ext x2d ids weights inners expertMap limit hr.perm _))
    refine List.flatMap_congr fun e he => ?_
    have he := List.mem_range.mp he
    simp only [localRows, List.getElem?_eq_getElem he, hr.zip_seg he, decide_eq_true_eq]
  · exact ⟨hr.length_counts, by rw [hr.tokens, List.length_map, hr.sum_counts],
      by rw [hr.weights, List.length_map, hr.sum_counts]⟩

/-! ### The fat experts -/

/-- A loop whose steps add rows adds the rows of all its steps. -/
theorem foldlM_indexAdd {step : (Fin T → V) × FatState → ℕ → Outcome T V}
    {rows : ℕ → List (Fin T × V)} {l : List ℕ}
    (h : ∀ e ∈ l, ∀ st st', step st e = .ok st' → st'.1 = indexAdd st.1 (rows e))
    {st st' : (Fin T → V) × FatState} (hrun : l.foldlM step st = .ok st') :
    st'.1 = indexAdd st.1 (l.flatMap rows) := by
  induction l generalizing st with
  | nil =>
    cases hrun
    rfl
  | cons e l ih =>
    obtain ⟨he, h⟩ := List.forall_mem_cons.mp h
    rw [List.foldlM_cons] at hrun
    cases hstep : step st e with
    | error err => simp [hstep, bind, Except.bind] at hrun
    | ok mid =>
      rw [hstep] at hrun
      rw [ih h hrun, he st mid hstep, List.flatMap_cons, indexAdd_append]

/-- A loop whose steps return returns. -/
theorem foldlM_returns {σ ε : Type*} {step : σ → ℕ → Except ε σ} {l : List ℕ}
    (h : ∀ e ∈ l, ∀ s, ∃ s', step s e = .ok s') (s : σ) : ∃ s', l.foldlM step s = .ok s' := by
  induction l generalizing s with
  | nil => exact ⟨s, rfl⟩
  | cons e l ih =>
    obtain ⟨he, h⟩ := List.forall_mem_cons.mp h
    obtain ⟨mid, hmid⟩ := he s
    rw [List.foldlM_cons, hmid]
    exact ih h mid

theorem length_counts_take
    (hr : r.Sorts weights (slotKey ids inners expertMap) inners.length sorted) :
    (r.expertCount.take inners.length).length = inners.length := by
  rw [List.length_take, hr.length_counts]
  omega

/-- A loop over the fat experts adds the rows of the experts that do not fit, if its body
adds the rows of one. -/
theorem forFatExperts_indexAdd {cap : ℕ}
    {body : ℕ → ℕ → ℕ → (Fin T → V) × FatState → Outcome T V}
    (hr : r.Sorts weights (slotKey ids inners expertMap) inners.length sorted)
    (hbody : ∀ e (he : e < inners.length) (st st' : (Fin T → V) × FatState),
      body e (start r.expertCount e) (r.expertCount.getD e 0) st = .ok st' →
        st'.1 = indexAdd st.1 (ext.expertRows limit inners[e] x2d
          ((seg r.expertCount e r.tokenSorted).zip (seg r.expertCount e r.weightSorted))))
    {st st' : (Fin T → V) × FatState}
    (hrun : forFatExperts cap body 0 0 (r.expertCount.take inners.length) st = .ok st') :
    st'.1 = indexAdd st.1 (routedRows ext x2d ids weights inners expertMap limit
      fun e => !decide (r.expertCount.getD e 0 ≤ cap)) := by
  rw [forFatExperts_eq, length_counts_take hr] at hrun
  rw [foldlM_indexAdd ?_ hrun]
  · exact indexAdd_perm _ (localRows_perm ext x2d ids weights inners expertMap limit hr.perm _)
  intro e he st st' hstep
  have he := List.mem_range.mp he
  rw [getD_take he, start_take he.le] at hstep
  by_cases hcap : r.expertCount.getD e 0 ≤ cap
  · rw [if_pos hcap] at hstep
    cases hstep
    simp only [hcap, decide_true, Bool.not_true, Bool.false_eq_true, ↓reduceIte, indexAdd_nil]
  · rw [if_neg hcap] at hstep
    simp only [hbody e he st st' hstep, hcap, decide_false, Bool.not_false, ↓reduceIte,
      localRows, List.getElem?_eq_getElem he, hr.zip_seg he]

theorem forFatExperts_returns {σ ε : Type*} {cap : ℕ} {body : ℕ → ℕ → ℕ → σ → Except ε σ}
    {counts : List ℕ}
    (h : ∀ e < counts.length, cap < counts.getD e 0 → ∀ offset nRows s,
      ∃ s', body e offset nRows s = .ok s') (s : σ) :
    ∃ s', forFatExperts cap body 0 0 counts s = .ok s' := by
  rw [forFatExperts_eq]
  refine foldlM_returns (fun e he s => ?_) s
  split_ifs with hcap
  · exact ⟨s, rfl⟩
  · exact h e (List.mem_range.mp he) (not_le.mp hcap) _ _ s

/-- The sorted fallback adds the rows of the experts that do not fit. -/
theorem applyExl3SortedFat_eq
    (hr : r.Sorts weights (slotKey ids inners expertMap) inners.length sorted) {cap : ℕ}
    {out : Fin T → V} {s : FatState} {st' : (Fin T → V) × FatState}
    (hrun : applyExl3SortedFat ext x2d r.tokenSorted r.weightSorted
      (r.expertCount.take inners.length) inners limit cap out s = .ok st') :
    st'.1 = indexAdd out (routedRows ext x2d ids weights inners expertMap limit
      fun e => !decide (r.expertCount.getD e 0 ≤ cap)) := by
  refine forFatExperts_indexAdd hr (fun e he st st' hstep => ?_) hrun
  simp only [List.getElem?_eq_getElem he, Except.ok.injEq] at hstep
  rw [← hstep]
  simp only [zip_runExpert]
  rfl

theorem applyExl3SortedFat_returns {counts : List ℕ} (hc : counts.length ≤ inners.length)
    (xh : Fin T → X) (tokens : List (Fin T)) (scale : List W) (cap : ℕ) (out : Fin T → V)
    (s : FatState) :
    ∃ st, applyExl3SortedFat ext xh tokens scale counts inners limit cap out s = .ok st := by
  refine forFatExperts_returns (fun e he _ offset nRows st => ?_) _
  simp only [List.getElem?_eq_getElem (he.trans_le hc)]
  exact ⟨_, rfl⟩

/-! ### The batched fallback -/

omit [AddCommMonoid V] [SMul W V] in
theorem fatAct_eq (gateUp : I × I) : fatAct ext limit gateUp =
    ext.swiglu limit gateUp.1 gateUp.2 := by
  rw [fatAct, Ext.swiglu, Ext.silu, mul_comm (ext.sigmoid _)]

/-- The stacked GEMM is the two matrices of the expert, behind the one transform. -/
theorem fatGateUp_eq {gemm : Option (P × P → ℕ → X → I × I)} (hext : ext.Contract)
    (hgemm : ∀ g ∈ gemm, ext.IsFatGemm g)
    {pack : Pack S P} (hsuh : pack.gate.suh = pack.up.suh) (hk : pack.gate.k = pack.up.k)
    {useKernel : Bool} {h : List X} {s : FatState} {res : List (I × I) × FatState}
    (hrun : fatGateUp ext gemm useKernel pack (h.map (ext.hadR128 pack.gate.suh)) s = .ok res) :
    res.1 = h.map fun x => (ext.forward13 pack.gate x, ext.forward13 pack.up x) := by
  have hpair : ∀ x, (ext.hgemm13 pack.gate.packed pack.gate.k (ext.hadR128 pack.gate.suh x),
      ext.hgemm13 pack.up.packed pack.gate.k (ext.hadR128 pack.gate.suh x))
        = (ext.forward13 pack.gate x, ext.forward13 pack.up x) := by
    intro x
    rw [hext.forward13, hext.forward13, hsuh, hk]
  unfold fatGateUp at hrun
  cases useKernel with
  | false =>
    simp only [Bool.false_eq_true, ↓reduceIte, Except.ok.injEq, List.map_map] at hrun
    rw [← hrun]
    exact List.map_congr_left fun x _ => hpair x
  | true =>
    cases gemm with
    | none => simp at hrun
    | some g =>
      simp only [↓reduceIte] at hrun
      split_ifs at hrun with hbits
      rw [not_not] at hbits
      simp only [Except.ok.injEq, List.map_map] at hrun
      rw [← hrun]
      refine List.map_congr_left fun x _ => ?_
      rw [← hpair x, Function.comp_apply, hbits]
      exact hgemm g rfl _ _ _

omit [CommMagma I] in
/-- The down matrix of the batched path, whether it scatters or not. -/
theorem fatDown_eq
    {gemm : Option ((T : ℕ) → List I → P → (Fin T → V) → List (Fin T) → List W → ℕ → Fin T → V)}
    (hgemm : ∀ g ∈ gemm, ext.IsFatGemmScatter g)
    {useKernel : Bool} {pack : Pack S P} {h2 : List I} {tokens : List (Fin T)} {scale : List W}
    {out : Fin T → V} {s : FatState} {st' : (Fin T → V) × FatState}
    (hrun : fatDown ext gemm useKernel pack h2 tokens scale out s = .ok st') :
    st'.1 = indexAdd out (ext.scatterRows h2 pack.down.packed tokens scale pack.down.k) := by
  unfold fatDown at hrun
  cases useKernel with
  | false =>
    simp only [Bool.false_eq_true, ↓reduceIte, Except.ok.injEq] at hrun
    rw [← hrun]
    rfl
  | true =>
    cases gemm with
    | none => simp at hrun
    | some g =>
      simp only [↓reduceIte] at hrun
      split_ifs at hrun with hbits
      rw [not_not] at hbits
      simp only [Except.ok.injEq] at hrun
      rw [← hrun, hbits, hgemm g rfl]

/-- A fat expert in the batched path: the stacked matrices stand for the expert where gate
and up share their signs. -/
theorem batchedFatStep_eq {gemm : Option (P × P → ℕ → X → I × I)}
    {gemmScatter :
      Option ((T : ℕ) → List I → P → (Fin T → V) → List (Fin T) → List W → ℕ → Fin T → V)}
    (hext : ext.Contract)
    (hgemm : ∀ g ∈ gemm, ext.IsFatGemm g) (hscatter : ∀ g ∈ gemmScatter, ext.IsFatGemmScatter g)
    {env : Env} {tokens : List (Fin T)} {scale : List W} {useKernel : Bool} {e offset nRows : ℕ}
    (he : e < inners.length) (hsuh : inners[e].gate.suh = inners[e].up.suh)
    (hk : inners[e].gate.k = inners[e].up.k) {st st' : (Fin T → V) × FatState}
    (hrun : batchedFatStep env ext gemm gemmScatter x2d tokens scale inners limit useKernel e offset
      nRows st = .ok st') :
    st'.1 = indexAdd st.1 (ext.expertRows limit inners[e] x2d
      ((slice tokens offset nRows).zip (slice scale offset nRows))) := by
  simp only [batchedFatStep, List.getElem?_eq_getElem he] at hrun
  split at hrun
  · cases hrun
  split at hrun
  · cases hrun
  · rename_i gateUp s' hgate
    have hrows := fatGateUp_eq hext hgemm hsuh hk hgate
    simp only at hrows
    rw [fatDown_eq hscatter hrun, Ext.scatterRows, hrows, ← zip_runExpert, Ext.runExpert_eq]
    simp only [List.map_map]
    congr 4
    funext t
    simp only [Function.comp_apply, fatAct_eq, Ext.expert, hext.forward2]

/-- The symbols of the extension that the enabled fat path calls. -/
structure Ext.HasFatKernel (ext : Ext S P X I V W L) (env : Env) : Prop where
  pipe : env.fatPipelineEnabled → ext.exl3FatGemmPipe.isSome ∧ ext.exl3FatGemmPipeScatter.isSome
  stock : ¬ env.fatPipelineEnabled → ext.exl3FatGemm.isSome ∧ ext.exl3FatGemmScatter.isSome

/-- The fat GEMMs are compiled for the matrices of the expert. -/
def Pack.HasKernelBits (pack : Pack S P) : Prop :=
  pack.gate.k = kernelBits ∧ pack.down.k = kernelBits

instance (pack : Pack S P) : Decidable pack.HasKernelBits :=
  inferInstanceAs (Decidable (_ ∧ _))

/-- The batched fallback adds the rows of the experts that do not fit. -/
theorem applyExl3BatchedFat_eq (hext : ext.Contract)
    (hr : r.Sorts weights (slotKey ids inners expertMap) inners.length sorted)
    (hsuh : ∀ pack ∈ inners, pack.gate.suh = pack.up.suh)
    (hk : ∀ pack ∈ inners, pack.gate.k = pack.up.k) {env : Env} {cap : ℕ} {out : Fin T → V}
    {useKernel : Bool} {s : FatState} {st' : (Fin T → V) × FatState}
    (hrun : applyExl3BatchedFat env ext x2d r.tokenSorted r.weightSorted
      (r.expertCount.take inners.length) inners limit cap out useKernel s = .ok st') :
    st'.1 = indexAdd out (routedRows ext x2d ids weights inners expertMap limit
      fun e => !decide (r.expertCount.getD e 0 ≤ cap)) := by
  simp only [applyExl3BatchedFat] at hrun
  split at hrun
  · cases hrun
  · refine forFatExperts_indexAdd hr (fun e he st st' hstep => ?_) hrun
    refine batchedFatStep_eq hext (fun g hg => ?_) (fun g hg => ?_) he
      (hsuh _ (List.getElem_mem he)) (hk _ (List.getElem_mem he)) hstep
    · split at hg
      · exact hext.fatGemmPipe g hg
      · exact hext.fatGemm g hg
    · split at hg
      · exact hext.fatGemmPipeScatter g hg
      · exact hext.fatGemmScatter g hg

/-- One expert of the batched path, where the symbols are there: a row count that is no number is
found first, and then bits that the kernel is not compiled for. -/
theorem batchedFatStep_cases {env : Env} {gemm : Option (P × P → ℕ → X → I × I)}
    {gemmScatter :
      Option ((T : ℕ) → List I → P → (Fin T → V) → List (Fin T) → List W → ℕ → Fin T → V)}
    {useKernel : Bool} (hkernel : useKernel → gemm.isSome ∧ gemmScatter.isSome)
    (xh : Fin T → X) (tokens : List (Fin T)) (scale : List W) {e : ℕ} (he : e < inners.length)
    (offset nRows : ℕ) (st : (Fin T → V) × FatState) :
    let step := batchedFatStep env ext gemm gemmScatter xh tokens scale inners limit useKernel e
      offset nRows st
    (env.scratch.configured = none → ∃ s', step = .error (.scratchRows, s')) ∧
      (env.scratch.configured ≠ none →
        ((useKernel = true → inners[e].HasKernelBits) → ∃ st', step = .ok st') ∧
          (¬(useKernel = true → inners[e].HasKernelBits) →
            ∃ s', step = .error (.fatGemmBits, s'))) := by
  simp only [batchedFatStep, List.getElem?_eq_getElem he, fatGateUp, fatDown]
  cases hrows : env.scratch.configured with
  | none => exact ⟨fun _ => ⟨_, rfl⟩, fun h => absurd rfl h⟩
  | some rows =>
    refine ⟨fun h => (by cases h), fun _ => ?_⟩
    cases useKernel with
    | false => exact ⟨fun _ => ⟨_, rfl⟩, fun h => absurd (fun h' => (by cases h')) h⟩
    | true =>
      obtain ⟨hgemm, hscatter⟩ := hkernel rfl
      obtain ⟨g, rfl⟩ := Option.isSome_iff_exists.mp hgemm
      obtain ⟨g', rfl⟩ := Option.isSome_iff_exists.mp hscatter
      simp only [↓reduceIte, forall_const, Pack.HasKernelBits, ne_eq, ite_not]
      by_cases hgate : inners[e].gate.k = kernelBits
      · rw [if_pos hgate]
        by_cases hdown : inners[e].down.k = kernelBits
        · exact ⟨fun _ => ⟨_, if_pos hdown⟩, fun h => absurd ⟨hgate, hdown⟩ h⟩
        · exact ⟨fun h => absurd h.2 hdown, fun _ => ⟨_, if_neg hdown⟩⟩
      · rw [if_neg hgate]
        exact ⟨fun h => absurd h.1 hgate, fun _ => ⟨_, rfl⟩⟩

/-- A loop whose steps return or raise one error, by their index, raises it where some step does. -/
theorem foldlM_raises {σ ε ρ : Type*} {step : σ → ℕ → Except (ε × ρ) σ} {p : ℕ → Prop} {err : ε}
    {l : List ℕ} (hgood : ∀ e ∈ l, p e → ∀ s, ∃ s', step s e = .ok s')
    (hbad : ∀ e ∈ l, ¬p e → ∀ s, ∃ s', step s e = .error (err, s')) (h : ∃ e ∈ l, ¬p e) (s : σ) :
    ∃ s', l.foldlM step s = .error (err, s') := by
  induction l generalizing s with
  | nil =>
    obtain ⟨e, he, -⟩ := h
    cases he
  | cons e l ih =>
    obtain ⟨hgood_e, hgood⟩ := List.forall_mem_cons.mp hgood
    obtain ⟨hbad_e, hbad⟩ := List.forall_mem_cons.mp hbad
    rw [List.foldlM_cons]
    by_cases he : p e
    · obtain ⟨mid, hmid⟩ := hgood_e he s
      rw [hmid]
      refine ih hgood hbad ?_ mid
      obtain ⟨e', he', hnot⟩ := h
      rcases List.mem_cons.mp he' with rfl | hmem
      · exact absurd he hnot
      · exact ⟨e', hmem, hnot⟩
    · obtain ⟨s', hs'⟩ := hbad_e he s
      exact ⟨s', by rw [hs']; rfl⟩

theorem forFatExperts_raises {σ ε ρ : Type*} {cap : ℕ} {body : ℕ → ℕ → ℕ → σ → Except (ε × ρ) σ}
    {counts : List ℕ} {p : ℕ → Prop} {err : ε}
    (hgood : ∀ e < counts.length, p e → ∀ offset nRows s, ∃ s', body e offset nRows s = .ok s')
    (hbad : ∀ e < counts.length, ¬p e → ∀ offset nRows s,
      ∃ s', body e offset nRows s = .error (err, s'))
    (h : ∃ e < counts.length, cap < counts.getD e 0 ∧ ¬p e) (s : σ) :
    ∃ s', forFatExperts cap body 0 0 counts s = .error (err, s') := by
  rw [forFatExperts_eq]
  refine foldlM_raises (p := fun e => counts.getD e 0 ≤ cap ∨ p e) ?_ ?_ ?_ s
  · intro e he hok s
    split_ifs with hcap
    · exact ⟨s, rfl⟩
    · exact hgood e (List.mem_range.mp he) (hok.resolve_left hcap) _ _ s
  · intro e he hnot s
    push Not at hnot
    rw [if_neg (not_le.mpr hnot.1)]
    exact hbad e (List.mem_range.mp he) hnot.2 _ _ s
  · obtain ⟨e, he, hcap, hnot⟩ := h
    exact ⟨e, List.mem_range.mpr he, by simp only [not_or, not_le]; exact ⟨hcap, hnot⟩⟩

/-- Some expert that does not fit has matrices of other bits than the kernel is compiled for. -/
def Unsupported (inners : List (Pack S P)) (counts : List ℕ) (cap : ℕ) : Prop :=
  ∃ e < counts.length, cap < counts.getD e 0 ∧ ∀ pack ∈ inners[e]?, ¬pack.HasKernelBits

/-- The batched fallback, where its symbols are there and some expert does not fit. -/
theorem applyExl3BatchedFat_cases {env : Env} {useKernel : Bool}
    (hkernel : useKernel → ext.HasFatKernel env) {counts : List ℕ}
    (hc : counts.length ≤ inners.length) (xh : Fin T → X) (tokens : List (Fin T)) (scale : List W)
    (cap : ℕ) (out : Fin T → V) (s : FatState) :
    let run := applyExl3BatchedFat env ext xh tokens scale counts inners limit cap out useKernel s
    (env.scratch.configured = none → (∃ e < counts.length, cap < counts.getD e 0) →
        ∃ s', run = .error (.scratchRows, s')) ∧
      (env.scratch.configured ≠ none →
        (useKernel = true → ¬Unsupported inners counts cap) → ∃ st, run = .ok st) ∧
      (env.scratch.configured ≠ none → useKernel = true → Unsupported inners counts cap →
        ∃ s', run = .error (.fatGemmBits, s')) := by
  intro run
  -- the run is the loop over the experts, with the symbols of the path
  obtain ⟨gemm, gemmScatter, hsymbols, hrun⟩ : ∃ gemm gemmScatter,
      (useKernel = true → gemm.isSome ∧ gemmScatter.isSome) ∧
        run = forFatExperts cap
          (batchedFatStep env ext gemm gemmScatter xh tokens scale inners limit useKernel)
          0 0 counts (out, s) := by
    simp only [run, applyExl3BatchedFat]
    by_cases hpipe : useKernel && env.fatPipelineEnabled
    · obtain ⟨hu, hp⟩ := Bool.and_eq_true_iff.mp hpipe
      obtain ⟨h1, h2⟩ := (hkernel hu).pipe hp
      simp only [hpipe, h1, h2, Bool.and_self, Bool.not_true, Bool.and_false, Bool.false_eq_true,
        ↓reduceIte]
      exact ⟨_, _, fun _ => ⟨h1, h2⟩, rfl⟩
    · simp only [hpipe, Bool.false_and, Bool.false_eq_true, ↓reduceIte]
      refine ⟨_, _, fun hu => ?_, rfl⟩
      exact (hkernel hu).stock fun hp => hpipe (by rw [hu, hp]; rfl)
  have hstep : ∀ e (he : e < counts.length), _ := fun e he =>
    @batchedFatStep_cases _ _ _ _ _ _ _ _ _ _ _ ext inners limit env _ _ _ hsymbols xh tokens scale
      e (he.trans_le hc)
  rw [hrun]
  refine ⟨fun hnone ⟨e, he, hcap⟩ => ?_, fun hsome hbits => ?_, fun hsome hu hbits => ?_⟩
  · exact forFatExperts_raises (p := fun _ => False) (fun _ _ h => h.elim)
      (fun e he _ _ _ st => (hstep e he _ _ st).1 hnone) ⟨e, he, hcap, fun h => h⟩ _
  · refine forFatExperts_returns (fun e he hcap _ _ st => ?_) _
    refine ((hstep e he _ _ st).2 hsome).1 fun hu => ?_
    by_contra hnot
    refine hbits hu ⟨e, he, hcap, fun pack hpack => ?_⟩
    rw [List.getElem?_eq_getElem (he.trans_le hc), Option.mem_some_iff] at hpack
    rwa [← hpack]
  · obtain ⟨e, he, hcap, hpack⟩ := hbits
    refine forFatExperts_raises
      (p := fun e => ∀ pack ∈ inners[e]?, pack.HasKernelBits) ?_ ?_
      ⟨e, he, hcap, fun h => ?_⟩ _
    · intro e he hgood _ _ st
      exact ((hstep e he _ _ st).2 hsome).1 fun _ =>
        hgood _ (List.getElem?_eq_getElem (he.trans_le hc))
    · intro e he hnot _ _ st
      refine ((hstep e he _ _ st).2 hsome).2 fun hgood => hnot fun pack hpack => ?_
      rw [List.getElem?_eq_getElem (he.trans_le hc), Option.mem_some_iff] at hpack
      rw [← hpack]
      exact hgood hu
    · have hmem := List.getElem?_eq_getElem (he.trans_le hc)
      exact hpack _ hmem (h _ hmem)

end Ways

end Glm53Serve.Exl3
