import Glm53Serve.Ablit.Postcondition

/-!
# The two calls of the hook

`overlay/patch_ablit.py` puts the hook at the end of `load_weights` of the target model,
which has the layers 0 to 44, and of the model of the checkpoint's MTP block, which is
layer 45. Both calls read the same settings.

## What is proved

* `selected_of_returns` — a call that returns has found a module to edit.
* `returns_of_selected` — a call that finds one returns, if the donors are there.
* `honoured_iff` — for which settings the two calls do what the settings say.
-/

namespace Glm53Serve.Ablit.Runtime

open Py Torch

/-! ### The hooked models -/

/-- The `o_proj` modules of the model are those of the layers from `lo` to `hi`. -/
structure HasLayers (M : Model) (mtp : Bool) (lo hi : ℤ) : Prop where
  distinct : M.Distinct
  layer : ∀ e ∈ M.textModel, (oProj e.1).isSome →
    isMtp e.1 = mtp ∧ ∃ idx, IsOProj e.1 idx ∧ lo ≤ idx ∧ idx ≤ hi
  complete : ∀ idx, lo ≤ idx → idx ≤ hi → ∃ e ∈ M.textModel, IsOProj e.1 idx

/-- The files of the donors of the layers are there, and sound. -/
structure DonorsPresent (env : Env) (layers : List ℤ) : Prop where
  table : ∃ table, env.table env.tdir = some table ∧
    ∀ L ∈ layers, (∃ donor, IsDonor env env.tdir L donor) ∨
      (¬ (0 ≤ L ∧ L ≤ 45) ∧ lookupMeta table L = none)

/-- The donors have the shapes of the weights. -/
def DonorsFit (env : Env) (M : Model) (layers : List ℤ) (w : Weights) : Prop :=
  ∀ e ∈ M.textModel, ∀ idx ∈ layers, IsOProj e.1 idx → ∀ donor, IsDonor env env.tdir idx donor →
    ∃ weight, w e.2 = some weight ∧ Fits env donor weight

/-- The module holds the columns of this rank of the donor of the layer. -/
def Replaced (env : Env) (idx : ℤ) (w' : Weights) (m : ModuleId) : Prop :=
  ∃ donor, IsDonor env env.tdir idx donor ∧ w' m = some (rankSlice env.world env.rank donor)

/-- The two calls return, the layers of the target that are named are replaced, and the MTP block
is replaced exactly if `ABLIT_INCLUDE_MTP` is on and layer 45 is named. -/
def Honoured (env : Env) (layers : List ℤ) (target mtp : Model) (wT wM : Weights) : Prop :=
  ∃ wT' rT wM' rM, maybeApply env target wT = .ok (wT', rT) ∧
    maybeApply env mtp wM = .ok (wM', rM) ∧
    (∀ e ∈ target.textModel, ∀ idx ∈ layers, IsOProj e.1 idx → Replaced env idx wT' e.2) ∧
    ∀ e ∈ mtp.textModel, IsOProj e.1 45 →
      if env.knobs.includeMtp = true ∧ 45 ∈ layers then
        Replaced env 45 wM' e.2 else wM' e.2 = wM e.2

/-! ### When a call returns -/

/-- A call that returns has found a module to edit. -/
theorem selected_of_returns {env : Env} {layers : List ℤ} (ht : Transplants env layers) {M : Model}
    {w w' : Weights} {r : Option Report} (h : maybeApply env M w = .ok (w', r)) :
    ∃ e ∈ M.textModel, ∃ idx, IsOProj e.1 idx ∧ Selected layers env.knobs.includeMtp e.1 idx := by
  obtain ⟨listed, cs, s, -, hc, hs, -, hne⟩ := maybeApply_ok ht h
  by_contra hno
  refine hne ((transplantAll_report (fresh_walk hc w _) hs).2.2 fun c hcs hsel => hno ?_)
  obtain ⟨hmem, ho, -⟩ := (walkFrom_spec hc).1 c hcs
  exact ⟨(c.name, c.mod), hmem, c.idx, ho, hsel⟩

/-- The manifest is accepted if the donors are there. -/
theorem exists_transplantMeta {env : Env} {layers : List ℤ} (hp : DonorsPresent env layers) {L : ℤ}
    (hL : L ∈ layers) (hin : 0 ≤ L ∧ L ≤ 45) :
    ∃ listed, transplantMeta env env.tdir layers = .ok listed := by
  obtain ⟨table, htab, hall⟩ := hp.table
  refine ⟨_, transplantMeta_ok_iff.mpr ⟨table, htab, rfl, ?_, ?_⟩⟩
  · rintro ⟨K, info⟩ he
    obtain ⟨K', hK, hmap⟩ := List.mem_filterMap.mp he
    obtain ⟨info', hi, heq⟩ := Option.map_eq_some_iff.mp hmap
    obtain ⟨rfl, rfl⟩ := Prod.mk.inj heq
    rcases hall K' hK with ⟨donor, hd⟩ | ⟨-, hnone⟩
    · obtain ⟨table', info'', _, _, _, htab', hi', -, hc, -⟩ := hd.verified
      obtain rfl := Option.some.inj (htab.symm.trans htab')
      obtain rfl := Option.some.inj (hi.symm.trans hi')
      exact hc
    · rw [hnone] at hi
      cases hi
  · rcases hall L hL with ⟨donor, hd⟩ | ⟨hout, -⟩
    · obtain ⟨table', info, _, _, _, htab', hi, -⟩ := hd.verified
      obtain rfl := Option.some.inj (htab.symm.trans htab')
      exact List.ne_nil_of_mem (List.mem_filterMap.mpr ⟨L, hL, by rw [hi]; rfl⟩)
    · exact absurd hin hout

/-- A call that finds a module to edit returns, if the donors are there and fit. -/
theorem returns_of_selected {env : Env} {layers : List ℤ} (ht : Transplants env layers) {M : Model}
    {mtp : Bool} {lo hi : ℤ} (hM : HasLayers M mtp lo hi) (hlo : 0 ≤ lo) (hhi : hi ≤ 45)
    (hp : DonorsPresent env layers) {w : Weights} (hf : DonorsFit env M layers w)
    {e : Text × ModuleId} (he : e ∈ M.textModel) {idx : ℤ} (ho : IsOProj e.1 idx)
    (hsel : Selected layers env.knobs.includeMtp e.1 idx) :
    ∃ w' r, maybeApply env M w = .ok (w', some r) := by
  have hrange : ∀ e ∈ M.textModel, ∀ i, IsOProj e.1 i → 0 ≤ i ∧ i ≤ 45 := by
    intro e he i hi'
    obtain ⟨-, j, hj, h1, h2⟩ := hM.layer e he hi'.isSome
    obtain rfl : i = j := Option.some.inj (hi'.symm.trans hj)
    omega
  obtain ⟨listed, hl⟩ := exists_transplantMeta hp hsel.1 (hrange e he idx ho)
  obtain ⟨cs, hc⟩ := exists_walkFrom
    (fun e he hs => (hM.layer e he hs).2.imp fun _ h => h.1) []
  have hfresh := fresh_walk hc w ⟨[], [], false⟩
  have hdonor : ∀ c ∈ cs, Selected layers env.knobs.includeMtp c.name c.idx → ∃ donor weight,
      streamedDonors env env.tdir listed c.idx = .ok donor ∧ w c.mod = some weight ∧
        Fits env donor weight := by
    intro c hcs hselc
    obtain ⟨hmem, hoc, -⟩ := (walkFrom_spec hc).1 c hcs
    obtain ⟨table, -, hall⟩ := hp.table
    rcases hall c.idx hselc.1 with ⟨donor, hd⟩ | ⟨hout, -⟩
    · obtain ⟨weight, hw, hfit⟩ := hf (c.name, c.mod) hmem c.idx hselc.1 hoc donor hd
      exact ⟨donor, weight, (streamedDonors_ok_iff hl hselc.1).mpr hd, hw, hfit⟩
    · exact absurd (hrange (c.name, c.mod) hmem c.idx hoc) hout
  obtain ⟨s, hs⟩ := exists_transplantAll hfresh hdonor
  refine exists_maybeApply ht hl hc hs ((transplantAll_report hfresh hs).1 ?_)
  obtain ⟨c, hcs, hname, hidx, -⟩ := exists_candidate hM.distinct hc he ho
  exact ⟨c, hcs, by rw [hname, hidx]; exact hsel⟩

/-- What a call that returns has replaced. -/
theorem replaced_of_returns {env : Env} {layers : List ℤ} (ht : Transplants env layers) {M : Model}
    (hd : M.Distinct) (hr : env.rank < env.world) {w w' : Weights} {r : Option Report}
    (h : maybeApply env M w = .ok (w', r)) {e : Text × ModuleId} (he : e ∈ M.textModel) {idx : ℤ}
    (ho : IsOProj e.1 idx) (hsel : Selected layers env.knobs.includeMtp e.1 idx) :
    Replaced env idx w' e.2 := by
  obtain ⟨listed, cs, s, hl, hc, hs, rfl, -⟩ := maybeApply_ok ht h
  obtain ⟨donor, hdon, hw, -⟩ := transplantAll_replaced hd hr hl hc hs he ho hsel
  exact ⟨donor, hdon, hw⟩

/-! ### The settings that are honoured -/

/-- **When the hook honours its knobs**: with a layer of the target named and the donors there, the
two calls do what the settings say exactly if the MTP block is to be edited. -/
theorem honoured_iff {env : Env} {layers : List ℤ} (ht : Transplants env layers)
    (hr : env.rank < env.world) {target mtp : Model} (hT : HasLayers target false 0 44)
    (hM : HasLayers mtp true 45 45) (hp : DonorsPresent env layers) {wT wM : Weights}
    (hfT : DonorsFit env target layers wT) (hfM : DonorsFit env mtp layers wM)
    (hl : ∃ L ∈ layers, 0 ≤ L ∧ L ≤ 44) :
    Honoured env layers target mtp wT wM ↔ env.knobs.includeMtp = true ∧ 45 ∈ layers := by
  constructor
  · rintro ⟨-, -, wM', rM, -, hok, -⟩
    obtain ⟨e, he, idx, ho, hmem, hinc⟩ := selected_of_returns ht hok
    obtain ⟨hmtp, j, hj, h1, h2⟩ := hM.layer e he ho.isSome
    obtain rfl : idx = j := Option.some.inj (ho.symm.trans hj)
    obtain rfl : idx = 45 := by omega
    exact ⟨hinc hmtp, hmem⟩
  · rintro ⟨hinc, h45⟩
    have hsel : ∀ (name : Text) (idx : ℤ), idx ∈ layers →
        Selected layers env.knobs.includeMtp name idx :=
      fun _ _ h => ⟨h, fun _ => hinc⟩
    obtain ⟨L, hL, h0, h44⟩ := hl
    obtain ⟨e, he, ho⟩ := hT.complete L h0 h44
    obtain ⟨wT', rT, hokT⟩ := returns_of_selected ht hT le_rfl (by norm_num) hp hfT he ho
      (hsel _ _ hL)
    obtain ⟨e', he', ho'⟩ := hM.complete 45 le_rfl le_rfl
    obtain ⟨wM', rM, hokM⟩ :=
      returns_of_selected ht hM (by norm_num) le_rfl hp hfM he' ho' (hsel _ _ h45)
    refine ⟨wT', rT, wM', rM, hokT, hokM, fun e he idx hidx ho => ?_, fun e he ho => ?_⟩
    · exact replaced_of_returns ht hT.distinct hr hokT he ho (hsel _ _ hidx)
    · rw [if_pos ⟨hinc, h45⟩]
      exact replaced_of_returns ht hM.distinct hr hokM he ho (hsel _ _ h45)

/-! ### Two runs -/

/-- `demoEnv` with the layers 0 and 45 listed, and `ABLIT_LAYERS` set. -/
def hookEnv (spec : Text) : Env where
  knobs := { demoEnv.knobs with ABLIT_LAYERS := some spec }
  world := 2
  rank := 1
  dir _ := { demoEnv.tdir with bin := fun _ => some [1, 2, 3, 4] }
  loads _ := some ⟨[['0'], ['4', '5']].map fun k =>
    (k, ⟨some 4, some ['B', 'F', '1', '6'], some demoDigest, some [1, 2]⟩), []⟩
  hexdigest _ := demoDigest
  proj _ _ _ _ := .error .other

/-- `layers.{i}.self_attn.o_proj`. -/
def layerName (i : ℕ) : Text :=
  ['l', 'a', 'y', 'e', 'r', 's', '.'] ++ Json.natText i ++ ['.'] ++ selfAttn ++
    ['.', 'o', '_', 'p', 'r', 'o', 'j']

/-- `layers.45.mtp_block.self_attn.o_proj`. -/
def mtpName : Text :=
  ['l', 'a', 'y', 'e', 'r', 's', '.', '4', '5', '.', 'm', 't', 'p', '_', 'b', 'l', 'o', 'c', 'k',
    '.'] ++ selfAttn ++ ['.', 'o', '_', 'p', 'r', 'o', 'j']

/-- The layers 0 to 44. -/
def targetModel : Model := ⟨(List.range 45).map fun i => (layerName i, i), none⟩

/-- The block of layer 45. -/
def mtpModel : Model := ⟨[(mtpName, 0)], none⟩

theorem targetModel_hasLayers : HasLayers targetModel false 0 44 := by
  have hidx : ∀ i < 45, (oProj (layerName i)).bind Py.int = some (i : ℤ) ∧
      isMtp (layerName i) = false := by
    decide +kernel
  have hmem : ∀ e ∈ targetModel.textModel, ∃ i < 45, e = (layerName i, i) := by
    intro e he
    obtain ⟨i, hi, rfl⟩ := List.mem_map.mp he
    exact ⟨i, List.mem_range.mp hi, rfl⟩
  refine ⟨fun e he e' he' _ _ h => ?_, fun e he _ => ?_, fun idx h0 h1 => ?_⟩
  · obtain ⟨i, -, rfl⟩ := hmem e he
    obtain ⟨j, -, rfl⟩ := hmem e' he'
    exact congrArg layerName h
  · obtain ⟨i, hi, rfl⟩ := hmem e he
    exact ⟨(hidx i hi).2, i, (hidx i hi).1, by omega, by omega⟩
  · obtain ⟨i, rfl⟩ := Int.eq_ofNat_of_zero_le h0
    have hi : i < 45 := by omega
    exact ⟨(layerName i, i), List.mem_map.mpr ⟨i, List.mem_range.mpr hi, rfl⟩, (hidx i hi).1⟩

theorem mtpModel_hasLayers : HasLayers mtpModel true 45 45 := by
  have hidx : IsOProj mtpName 45 := by
    unfold IsOProj
    decide +kernel
  refine ⟨fun e he e' he' _ _ _ => ?_, fun e he _ => ?_, fun idx h0 h1 => ?_⟩
  · rw [List.mem_singleton.mp he, List.mem_singleton.mp he']
  · obtain rfl := List.mem_singleton.mp he
    exact ⟨by decide +kernel, 45, hidx, le_rfl, le_rfl⟩
  · obtain rfl : idx = 45 := by omega
    exact ⟨(mtpName, 0), List.mem_singleton.mpr rfl, hidx⟩

/-- The donor of the runs. -/
def demoDonor : Mat Bf16 := ⟨[[(1, 2), (3, 4)]], 2, by simp⟩

theorem hookEnv_isDonor (spec : Text) {L : ℤ} (hL : L = 0 ∨ L = 45) :
    IsDonor (hookEnv spec) (hookEnv spec).tdir L demoDonor := by
  refine ⟨_, ⟨some 4, some ['B', 'F', '1', '6'], some demoDigest, some [1, 2]⟩, [1, 2, 3, 4],
    [(1, 2), (3, 4)], [1, 2], rfl, ?_, rfl, ?_, rfl, rfl, rfl, rfl⟩
  · rcases hL with rfl | rfl <;> decide +kernel
  · rcases hL with rfl | rfl <;> rfl

theorem hookEnv_donorsPresent (spec : Text) {layers : List ℤ} (h : ∀ L ∈ layers, L = 0 ∨ L = 45) :
    DonorsPresent (hookEnv spec) layers := by
  obtain ⟨table, _, _, _, _, htab, -⟩ := (hookEnv_isDonor spec (Or.inl rfl)).verified
  exact ⟨table, htab, fun L hL => Or.inl ⟨demoDonor, hookEnv_isDonor spec (h L hL)⟩⟩

theorem hookEnv_donorsFit (spec : Text) {layers : List ℤ} (h : ∀ L ∈ layers, L = 0 ∨ L = 45)
    (M : Model) : DonorsFit (hookEnv spec) M layers demoWeights := by
  intro e _ idx hidx _ donor hd
  rw [hd.unique (hookEnv_isDonor spec (h idx hidx))]
  exact ⟨_, rfl, rfl, rfl⟩

/-- With `ABLIT_LAYERS=0,45` the knobs are honoured. -/
theorem honoured_both :
    Honoured (hookEnv ['0', ',', '4', '5']) [0, 45] targetModel mtpModel demoWeights demoWeights :=
  (honoured_iff ⟨by decide +kernel, by decide +kernel, by decide +kernel⟩ (by decide)
    targetModel_hasLayers mtpModel_hasLayers (hookEnv_donorsPresent _ (by simp))
    (hookEnv_donorsFit _ (by simp) _) (hookEnv_donorsFit _ (by simp) _)
    ⟨0, by simp, by norm_num⟩).mpr ⟨by decide +kernel, by simp⟩

/-- With `ABLIT_LAYERS=0` they are not: the call on the MTP model finds nothing to edit. -/
theorem not_honoured_target :
    ∃ env layers wT wM, Transplants env layers ∧ env.rank < env.world ∧
      HasLayers targetModel false 0 44 ∧ HasLayers mtpModel true 45 45 ∧ DonorsPresent env layers ∧
      DonorsFit env targetModel layers wT ∧ DonorsFit env mtpModel layers wM ∧
      (∃ L ∈ layers, 0 ≤ L ∧ L ≤ 44) ∧ ¬ Honoured env layers targetModel mtpModel wT wM := by
  have ht : Transplants (hookEnv ['0']) [0] :=
    ⟨by decide +kernel, by decide +kernel, by decide +kernel⟩
  refine ⟨hookEnv ['0'], [0], demoWeights, demoWeights, ht, by decide, targetModel_hasLayers,
    mtpModel_hasLayers, hookEnv_donorsPresent _ (by simp), hookEnv_donorsFit _ (by simp) _,
    hookEnv_donorsFit _ (by simp) _, ⟨0, by simp, by norm_num⟩, ?_⟩
  rintro ⟨-, -, wM', rM, -, hok, -⟩
  obtain ⟨e, he, idx, ho, hmem, -⟩ := selected_of_returns ht hok
  obtain ⟨-, j, hj, h1, h2⟩ := mtpModel_hasLayers.layer e he ho.isSome
  obtain rfl : idx = j := Option.some.inj (ho.symm.trans hj)
  obtain rfl := List.mem_singleton.mp hmem
  omega

end Glm53Serve.Ablit.Runtime
