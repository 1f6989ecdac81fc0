import Glm53Serve.Exl3.Loading
import Mathlib.Data.List.Pairwise

/-!
# The ranks hold a partition of the experts

All ranks run the calls of `_load_exl3`, each in an order of its own. Calls for different tensors
copy into slots that do not meet, so they may be exchanged; the slot of a call then holds the slice
of its rank, whatever the order, and the slices of all ranks, joined, are the loaded tensor.

## What is proved

* `loadExl3_raises_iff` — the calls that raise, which are the same on every rank.
* `loadExl3_frame` — a call changes nothing outside the slot of its expert.
* `Store.copy_comm` — copies into slots that do not meet may be exchanged.
* `loadAll_perm` — a load that does not raise does not depend on the order.
* `load_partition` — all of this, and that the slices of the ranks, joined, are the loaded tensors.
-/

namespace Glm53Serve.Exl3.Loading

open Torch

variable {α : Type} {dims : Dims}

/-! ### Slots -/

/-- The slots have no element in common. -/
def Slot.Apart (a b : Slot dims) : Prop :=
  a.param ≠ b.param ∨ a.shape.prod = b.shape.prod ∧ a.index ≠ b.index

/-- Element `j` of parameter `p` lies in the slot. -/
def Slot.Covers (s : Slot dims) (p : Param) (j : ℕ) : Prop :=
  p = s.param ∧ s.index * s.shape.prod ≤ j ∧ j < (s.index + 1) * s.shape.prod

namespace Store

variable {st : Store α dims} {a b : Slot dims} {t u : Tensor α}

theorem copy_data (h : a.shape = t.shape) : (st.copy a t h).data =
    Function.update st.data a.param (setChunk a.shape.prod a.index t.data (st.data a.param)) := rfl

/-- A copy changes the slot alone. -/
theorem copy_frame (h : a.shape = t.shape) {p : Param} {j : ℕ} (hj : ¬a.Covers p j) :
    ((st.copy a t h).data p)[j]? = (st.data p)[j]? := by
  rcases eq_or_ne p a.param with rfl | hp
  · rw [copy_data, Function.update_self, getElem?_setChunk (h ▸ t.len) (st.len _ ▸ a.fits), if_neg]
    exact fun hin => hj ⟨rfl, hin⟩
  · rw [copy_data, Function.update_of_ne hp]

theorem tensor_copy (h : a.shape = t.shape) : (st.copy a t h).tensor a = t := by
  refine Tensor.ext h ?_
  show chunk _ _ ((st.copy a t h).data a.param) = t.data
  rw [copy_data, Function.update_self, chunk_setChunk (h ▸ t.len) (st.len _ ▸ a.fits)]

/-- Copies into slots that do not meet may be exchanged. -/
theorem copy_comm (hab : a.Apart b) (ha : a.shape = t.shape) (hb : b.shape = u.shape) :
    (st.copy a t ha).copy b u hb = (st.copy b u hb).copy a t ha := by
  refine Store.ext ?_
  by_cases hp : a.param = b.param
  · obtain ⟨hwidth, hindex⟩ := hab.resolve_left (not_not.mpr hp)
    have hu : u.data.length = a.shape.prod := by rw [u.len, ← hb, hwidth]
    have hfits := st.len a.param ▸ a.fits
    have hfits' : (b.index + 1) * a.shape.prod ≤ (st.data a.param).length := by
      rw [st.len, hp, hwidth]
      exact b.fits
    simp only [copy_data, ← hp, ← hwidth, Function.update_self, Function.update_idem]
    rw [setChunk_comm hu (ha ▸ t.len) hfits' hfits hindex.symm]
  · simp only [copy_data, Function.update_of_ne hp, Function.update_of_ne (Ne.symm hp)]
    exact Function.update_comm hp _ _ _

end Store

/-- Different tensors have slots that do not meet. -/
theorem place_apart {e e' : Fin dims.numExperts} {sh sh' : Shard} {s s' : Suffix}
    (h : (e, sh, s) ≠ (e', sh', s')) : (place e sh s).Apart (place e' sh' s') := by
  rcases eq_or_ne s s' with rfl | hs
  · by_cases hstack : sh.stack = sh'.stack
    · refine .inr ⟨by cases sh <;> cases sh' <;> cases hstack <;> rfl, fun hindex => h ?_⟩
      have hsh : sh = sh' ∧ (e : ℕ) = e' := by
        cases sh <;> cases sh' <;> cases hstack <;> simp only [place] at hindex <;> simp <;> omega
      rw [hsh.1, Fin.ext hsh.2]
    · exact .inl fun hparam => hstack (congrArg Param.stack hparam)
  · exact .inl fun hparam => hs (congrArg Param.suffix hparam)

/-! ### A call -/

section

variable {tpSize tpRank : ℕ} {expertMap : ℕ → Option (Fin dims.numExperts)} {c d : Call α}

/-- The store a call leaves. -/
def after (tpSize : ℕ) (expertMap : ℕ → Option (Fin dims.numExperts)) (tpRank : ℕ)
    (st : Store α dims)
    (c : Call α) : Store α dims := (loadExl3 tpSize expertMap tpRank c st).1

/-- The calls that raise are the same on every rank. -/
theorem loadExl3_raises_iff (hr : tpRank < tpSize) (hc : c.Denotes) (st : Store α dims) :
    (∃ err, (loadExl3 tpSize expertMap tpRank c st).2 = .error err) ↔
      (expertMap c.expertId).isSome ∧ c.Fails dims tpSize := by
  cases he : expertMap c.expertId with
  | none => simp [loadExl3_nonlocal he]
  | some e =>
    by_cases hfails : c.Fails dims tpSize
    · obtain ⟨err, herr⟩ := loadExl3_of_fails hr he hc hfails
      simp [herr, hfails]
    · obtain ⟨sh, s, t, -, -, hshape, hok⟩ := loadExl3_of_not_fails hr he hc hfails
      simp [hok, hfails]

/-- A call for an expert of another rank, or one that raises, changes nothing. -/
theorem loadExl3_unchanged (hr : tpRank < tpSize) (hc : c.Denotes) (st : Store α dims)
    (h : expertMap c.expertId = none ∨ ∃ err, (loadExl3 tpSize expertMap tpRank c st).2 =
      .error err) :
    (loadExl3 tpSize expertMap tpRank c st).1 = st := by
  rcases h with hnone | hraises
  · rw [loadExl3_nonlocal hnone]
  · obtain ⟨hsome, hfails⟩ := (loadExl3_raises_iff hr hc st).mp hraises
    obtain ⟨e, he⟩ := Option.isSome_iff_exists.mp hsome
    obtain ⟨err, herr⟩ := loadExl3_of_fails hr he hc hfails
    rw [herr]

/-- A call changes nothing outside the slot of its expert and shard. -/
theorem loadExl3_frame {e : Fin dims.numExperts} {sh : Shard} {s : Suffix} (hr : tpRank < tpSize)
    (hc : c.Denotes) (he : expertMap c.expertId = some e)
    (hs : c.supplies = some (c.expertId, sh, s))
    (st : Store α dims) {p : Param} {j : ℕ} (hj : ¬(place e sh s).Covers p j) :
    ((loadExl3 tpSize expertMap tpRank c st).1.data p)[j]? = (st.data p)[j]? := by
  by_cases hfails : c.Fails dims tpSize
  · obtain ⟨err, herr⟩ := loadExl3_of_fails hr he hc hfails
    rw [herr]
  · obtain ⟨sh', s', t, hs', -, hshape, hok⟩ := loadExl3_of_not_fails hr he hc hfails
    cases hs.symm.trans hs'
    rw [hok]
    exact Store.copy_frame hshape hj

/-- A call that does not raise leaves a copy of its slice, or nothing. -/
theorem after_cases (hr : tpRank < tpSize) (hc : c.Denotes)
    (h : ¬((expertMap c.expertId).isSome ∧ c.Fails dims tpSize)) :
    (expertMap c.expertId = none ∧ ∀ st : Store α dims, after tpSize expertMap tpRank st c = st) ∨
    ∃ e sh s t, expertMap c.expertId = some e ∧ c.supplies = some (c.expertId, sh, s) ∧
      IsPart tpSize tpRank c.loadedWeight t (partDim sh s) ∧
      ∃ hshape : (place e sh s).shape = t.shape, ∀ st : Store α dims,
        after tpSize expertMap tpRank st c = st.copy (place e sh s) t hshape := by
  cases he : expertMap c.expertId with
  | none => exact .inl ⟨rfl, fun st => by rw [after, loadExl3_nonlocal he]⟩
  | some e =>
    rw [he] at h
    obtain ⟨sh, s, t, hs, hpart, hshape, hok⟩ :=
      loadExl3_of_not_fails hr he hc fun hfails => h ⟨rfl, hfails⟩
    exact .inr ⟨e, sh, s, t, rfl, hs, hpart, hshape, fun st => by rw [after, hok]⟩

/-- Calls for different tensors may be exchanged. -/
theorem after_comm (hr : tpRank < tpSize)
    (hmap : ∀ g g' e, expertMap g = some e → expertMap g' = some e → g = g') (hc : c.Denotes)
    (hd : d.Denotes)
    (hcok : ¬((expertMap c.expertId).isSome ∧ c.Fails dims tpSize))
    (hdok : ¬((expertMap d.expertId).isSome ∧ d.Fails dims tpSize))
    (hcd : ∀ t, c.supplies = some t → d.supplies ≠ some t) (st : Store α dims) :
    after tpSize expertMap tpRank (after tpSize expertMap tpRank st c) d =
      after tpSize expertMap tpRank (after tpSize expertMap tpRank st d) c := by
  rcases after_cases hr hc hcok with ⟨-, hnone⟩ | ⟨e, sh, s, t, he, hs, -, hshape, hcopy⟩
  · rw [hnone, hnone]
  rcases after_cases hr hd hdok with ⟨-, hnone⟩ | ⟨e', sh', s', t', he', hs', -, hshape', hcopy'⟩
  · rw [hnone, hnone]
  rw [hcopy, hcopy', hcopy', hcopy]
  refine Store.copy_comm (place_apart fun heq => ?_) hshape hshape'
  obtain ⟨rfl, rfl, rfl⟩ : e = e' ∧ sh = sh' ∧ s = s' := by simpa using heq
  rw [hmap _ _ _ he' he] at hs'
  exact hcd _ hs hs'

end

/-! ### A load -/

/-- No tensor is supplied twice. -/
def Once (calls : List (Call α)) : Prop :=
  calls.Pairwise fun c d => ∀ t, c.supplies = some t → d.supplies ≠ some t

section

variable {tpSize tpRank : ℕ} {expertMap : ℕ → Option (Fin dims.numExperts)}
    {calls order : List (Call α)}

/-- A load stops where a call raises. -/
theorem loadAll_raises {c : Call α} (hc : c ∈ calls)
    (h : ∀ st : Store α dims, ∃ err, (loadExl3 tpSize expertMap tpRank c st).2 = .error err)
    (st : Store α dims) :
    ∃ err, (loadAll tpSize expertMap tpRank calls st).2 = some err := by
  induction calls generalizing st with
  | nil => exact absurd hc List.not_mem_nil
  | cons d ds ih =>
    rw [loadAll]
    split
    · rename_i st' ret hd
      rcases List.mem_cons.mp hc with rfl | hds
      · obtain ⟨err, herr⟩ := h st
        rw [hd] at herr
        exact absurd herr nofun
      · exact ih hds st'
    · exact ⟨_, rfl⟩

/-- A load of calls that do not raise runs all of them. -/
theorem loadAll_eq (hr : tpRank < tpSize) (hdenotes : ∀ c ∈ calls, c.Denotes)
    (h : ∀ c ∈ calls, ¬((expertMap c.expertId).isSome ∧ c.Fails dims tpSize)) (st : Store α dims) :
    loadAll tpSize expertMap tpRank calls st =
      (calls.foldl (after tpSize expertMap tpRank) st, none) := by
  induction calls generalizing st with
  | nil => rfl
  | cons c cs ih =>
    have hc := (loadExl3_raises_iff hr (hdenotes c List.mem_cons_self) st).not.mpr
      (h c List.mem_cons_self)
    rw [loadAll, List.foldl_cons]
    split
    · rename_i st' ret hok
      rw [ih (fun d hd => hdenotes d (List.mem_cons_of_mem c hd)) fun d hd =>
        h d (List.mem_cons_of_mem c hd), after, hok]
    · rename_i st' err herr
      exact absurd ⟨err, by rw [herr]⟩ hc

variable (hmap : ∀ g g' e, expertMap g = some e → expertMap g' = some e → g = g')

include hmap

/-- The order of calls that do not raise does not matter. -/
theorem foldl_after_perm (hr : tpRank < tpSize) (hdenotes : ∀ c ∈ calls, c.Denotes)
    (honce : Once calls)
    (h : ∀ c ∈ calls, ¬((expertMap c.expertId).isSome ∧ c.Fails dims tpSize))
    (hperm : order.Perm calls)
    (st : Store α dims) :
    order.foldl (after tpSize expertMap tpRank) st =
      calls.foldl (after tpSize expertMap tpRank) st := by
  have hsymm : Std.Symm fun c d : Call α => ∀ t, c.supplies = some t → d.supplies ≠ some t :=
    ⟨fun c d hcd t hd hc => hcd t hc hd⟩
  refine (List.Perm.foldl_eq' hperm.symm (fun c hc d hd st => ?_) st).symm
  by_cases hcd : c = d
  · rw [hcd]
  · exact after_comm hr hmap (hdenotes c hc) (hdenotes d hd) (h c hc) (h d hd)
      (honce.forall hc hd hcd) st

/-- After a load the slot of a call holds the slice of the rank. -/
theorem foldl_after_tensor (hr : tpRank < tpSize) (hdenotes : ∀ c ∈ calls, c.Denotes)
    (honce : Once calls)
    (h : ∀ c ∈ calls, ¬((expertMap c.expertId).isSome ∧ c.Fails dims tpSize)) {c : Call α}
    (hc : c ∈ calls)
    {e : Fin dims.numExperts} {sh : Shard} {s : Suffix} (he : expertMap c.expertId = some e)
    (hs : c.supplies = some (c.expertId, sh, s)) (st : Store α dims) :
    IsPart tpSize tpRank c.loadedWeight
      ((calls.foldl (after tpSize expertMap tpRank) st).tensor (place e sh s)) (partDim sh s) := by
  -- the call is taken as the last one
  obtain ⟨before, rest, rfl⟩ := List.append_of_mem hc
  have hperm : (before ++ rest ++ [c]).Perm (before ++ c :: rest) := by
    rw [List.append_assoc]
    exact List.Perm.append_left before (List.perm_append_singleton c rest)
  rw [← foldl_after_perm hmap hr hdenotes honce h hperm, List.foldl_append, List.foldl_cons,
    List.foldl_nil]
  rcases after_cases hr (hdenotes c hc) (h c hc) with ⟨hnone, -⟩
    | ⟨e', sh', s', t, he', hs', hpart, hshape, hcopy⟩
  · exact absurd (hnone.symm.trans he) nofun
  · cases he.symm.trans he'
    cases hs.symm.trans hs'
    rw [hcopy, Store.tensor_copy]
    exact hpart

end

/-- Loading the experts under tensor parallelism. A call raises exactly where it fails for an expert
of this rank, changes nothing then or for another rank's expert, and else changes the slot of its
expert and shard alone. Either a call for a local expert fails, and every rank's load raises, or no
load raises, its order does not matter, and the ranks' slices of every loaded tensor restore it. -/
theorem load_partition {tpSize : ℕ} {expertMap : ℕ → Option (Fin dims.numExperts)}
    {calls : List (Call α)}
    (htp : 0 < tpSize) (hmap : ∀ g g' e, expertMap g = some e → expertMap g' = some e → g = g')
    (hdenotes : ∀ c ∈ calls, c.Denotes) (honce : Once calls) :
    (∀ r < tpSize, ∀ c ∈ calls, ∀ st : Store α dims,
      ((∃ err, (loadExl3 tpSize expertMap r c st).2 = .error err) ↔
        (expertMap c.expertId).isSome ∧ c.Fails dims tpSize) ∧
      ((expertMap c.expertId = none ∨ ∃ err, (loadExl3 tpSize expertMap r c st).2 = .error err) →
        (loadExl3 tpSize expertMap r c st).1 = st) ∧
      ∀ e sh s, expertMap c.expertId = some e → c.supplies = some (c.expertId, sh, s) →
        ∀ p j, ¬(place e sh s).Covers p j →
          ((loadExl3 tpSize expertMap r c st).1.data p)[j]? = (st.data p)[j]?) ∧
    ∀ (order : ℕ → List (Call α)) (init : ℕ → Store α dims), (∀ r < tpSize, (order r).Perm calls) →
      ((∃ c ∈ calls, (expertMap c.expertId).isSome ∧ c.Fails dims tpSize) ∧
        ∀ r < tpSize, ∃ err, (loadAll tpSize expertMap r (order r) (init r)).2 = some err) ∨
      (∀ r < tpSize, (loadAll tpSize expertMap r (order r) (init r)).2 = none ∧
        loadAll tpSize expertMap r (order r) (init r) = loadAll tpSize expertMap r calls (init r)) ∧
      ∀ c ∈ calls, ∀ e, expertMap c.expertId = some e →
        ∃ sh s, c.supplies = some (c.expertId, sh, s) ∧
        Restored c.loadedWeight ((List.range tpSize).map fun r =>
          (loadAll tpSize expertMap r (order r) (init r)).1.tensor (place e sh s))
            (partDim sh s) := by
  constructor
  · intro r hr c hc st
    exact ⟨loadExl3_raises_iff hr (hdenotes c hc) st, loadExl3_unchanged hr (hdenotes c hc) st,
      fun e sh s he hs p j hj => loadExl3_frame hr (hdenotes c hc) he hs st hj⟩
  intro order init hperm
  by_cases hraises : ∃ c ∈ calls, (expertMap c.expertId).isSome ∧ c.Fails dims tpSize
  · refine .inl ⟨hraises, fun r hr => ?_⟩
    obtain ⟨c, hc, hfails⟩ := hraises
    exact loadAll_raises ((hperm r hr).mem_iff.mpr hc)
      (fun st => (loadExl3_raises_iff hr (hdenotes c hc) st).mpr hfails) (init r)
  · have hok : ∀ c ∈ calls, ¬((expertMap c.expertId).isSome ∧ c.Fails dims tpSize) :=
      fun c hc h => hraises ⟨c, hc, h⟩
    have hload : ∀ r < tpSize, loadAll tpSize expertMap r calls (init r) =
        (calls.foldl (after tpSize expertMap r) (init r), none) :=
          fun r hr => loadAll_eq hr hdenotes hok (init r)
    have horder : ∀ r < tpSize, loadAll tpSize expertMap r (order r) (init r) =
        loadAll tpSize expertMap r calls (init r) := fun r hr => by
      rw [loadAll_eq hr (fun c hc => hdenotes c ((hperm r hr).mem_iff.mp hc))
        (fun c hc => hok c ((hperm r hr).mem_iff.mp hc)), hload r hr,
        foldl_after_perm hmap hr hdenotes honce hok (hperm r hr)]
    refine .inr ⟨fun r hr => ⟨by rw [horder r hr, hload r hr], horder r hr⟩, fun c hc e he => ?_⟩
    rcases after_cases htp (hdenotes c hc) (hok c hc) with ⟨hnone, -⟩ | ⟨-, sh, s, -, -, hs, -, -⟩
    · exact absurd (hnone.symm.trans he) nofun
    · refine ⟨sh, s, hs, restored htp fun r hr => ?_⟩
      rw [horder r hr, hload r hr]
      exact foldl_after_tensor hmap hr hdenotes honce hok hc he hs (init r)

/-! ### Two ranks -/

/-- Two local experts. -/
def twoExperts : Dims where
  numExperts := 2
  hiddenSize := 16
  intermediateSizePerPartition := 16
  bits := 1
  hidden_tiles := rfl
  intermediate_tiles := rfl

/-- The experts 3 and 5 are local. -/
def twoExpertsMap (g : ℕ) : Option (Fin twoExperts.numExperts) :=
  if g = 3 then some ⟨1, by decide⟩ else if g = 5 then some ⟨0, by decide⟩ else none

/-- `suh` of the down matrix of expert 3. -/
def downSuh : Call ℕ where
  param := ⟨.w2, .suh⟩
  loadedWeight := ⟨[32], List.range 32, rfl⟩
  weightName := "layers.3.mlp.experts.w2_suh".toList
  shardId := "w2".toList
  expertId := 3
  returnSuccess := true

/-- `suh` of the up matrix of expert 5. -/
def upSuh : Call ℕ where
  param := ⟨.w13, .suh⟩
  loadedWeight := ⟨[16], List.replicate 16 7, rfl⟩
  weightName := "layers.3.mlp.experts.w13_suh".toList
  shardId := "w3".toList
  expertId := 5
  returnSuccess := true

def zeros : Store ℕ twoExperts where
  data p := List.replicate (twoExperts.paramShape p).prod 0
  len _ := List.length_replicate

theorem downSuh_supplies : downSuh.supplies = some (3, .w2, .suh) := by decide

theorem upSuh_supplies : upSuh.supplies = some (5, .w3, .suh) := by decide

theorem load_partition_twoRanks : Restored downSuh.loadedWeight
    ((List.range 2).map fun r => (loadAll 2 twoExpertsMap r [upSuh, downSuh] zeros).1.tensor
      (place ⟨1, by decide⟩ .w2 .suh))
    (some 0) := by
  have hmap : ∀ g g' e, twoExpertsMap g = some e → twoExpertsMap g' = some e → g = g' := by
    intro g g' e h h'
    unfold twoExpertsMap at h h'
    grind
  have hdenotes : ∀ c ∈ [downSuh, upSuh], c.Denotes := by
    intro c hc e sh s hs
    rcases List.mem_pair.mp hc with rfl | rfl
    · cases downSuh_supplies.symm.trans hs
      rfl
    · cases upSuh_supplies.symm.trans hs
      rfl
  have honce : Once [downSuh, upSuh] := by
    refine List.pairwise_pair.mpr fun t ht ht' => ?_
    cases downSuh_supplies.symm.trans ht
    exact absurd (upSuh_supplies.symm.trans ht') (by decide)
  rcases (load_partition two_pos hmap hdenotes honce).2 (fun _ => [upSuh, downSuh]) (fun _ => zeros)
    fun _ _ => List.Perm.swap _ _ _ with ⟨⟨c, hc, -, hfails⟩, -⟩ | ⟨-, h⟩
  · rcases List.mem_pair.mp hc with rfl | rfl
    · rcases hfails with ⟨d, hd, hndvd⟩ | hne
      · cases hd
        exact absurd (by decide) hndvd
      · exact absurd (by decide) hne
    · rcases hfails with ⟨d, hd, hndvd⟩ | hne
      · exact absurd hd nofun
      · exact absurd (by decide) hne
  · obtain ⟨sh, s, hs, hrestored⟩ := h downSuh List.mem_cons_self ⟨1, by decide⟩ rfl
    cases downSuh_supplies.symm.trans hs
    exact hrestored

end Glm53Serve.Exl3.Loading
