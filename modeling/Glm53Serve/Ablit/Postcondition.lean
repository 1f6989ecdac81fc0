import Glm53Serve.Ablit.Runtime

/-!
# What the transplant leaves

The loop of `apply_transplant` copies into each module that is to be edited the columns of
this rank, and leaves the other modules.

## What is proved

* `transplantOne_cases` — what one turn of the loop does.
* `transplantAll_edited`, `transplantAll_frame` — what the loop writes, and what it leaves.
* `exists_transplantAll` — when the loop ends.
* `maybeApply_postcondition` — what holds after a call that returns.
-/

namespace Glm53Serve.Ablit.Runtime

open Py Torch

/-! ### The loop -/

/-- The hook is to edit the module of this name, of the layer `idx`. -/
def Selected (layers : List ℤ) (includeMtp : Bool) (name : Text) (idx : ℤ) : Prop :=
  idx ∈ layers ∧ (isMtp name = true → includeMtp = true)

/-- The shapes of a donor and of the weight it replaces go together. -/
def Fits (env : Env) (donor weight : Mat Bf16) : Prop :=
  donor.height = weight.height ∧ donor.cols = weight.cols * env.world

section Loop

variable {env : Env} {donors : ℤ → Except Error (Mat Bf16)} {want : List ℤ} {includeMtp : Bool}

/-- **A turn**, for a module that has not been seen. -/
theorem transplantOne_cases {s s' : Loop} {c : Candidate} (hc : c.mod ∉ s.seen)
    (h : transplantOne env donors want includeMtp s c = .ok s') :
    s'.seen = c.mod :: s.seen ∧
      ((¬ Selected want includeMtp c.name c.idx ∧ s'.weights = s.weights ∧
          s'.report.editedLayers = s.report.editedLayers ∧
            s'.report.mtpEdited = s.report.mtpEdited) ∨
        (Selected want includeMtp c.name c.idx ∧ ∃ donor weight, donors c.idx = .ok donor ∧
          s.weights c.mod = some weight ∧ Fits env donor weight ∧
          s'.weights = Function.update s.weights c.mod (some (shard env donor weight.cols)) ∧
          s'.report.editedLayers = s.report.editedLayers ++ [c.idx])) := by
  rw [transplantOne, if_neg hc] at h
  split_ifs at h with hm hw
  · obtain rfl := Except.ok.inj h
    refine ⟨rfl, Or.inl ⟨fun hs => ?_, rfl, rfl, rfl⟩⟩
    simp only [Bool.and_eq_true, Bool.not_eq_true'] at hm
    rw [hs.2 hm.1] at hm
    cases hm.2
  · have hsel : Selected want includeMtp c.name c.idx := ⟨hw, fun hmtp => by simpa [hmtp] using hm⟩
    cases hd : donors c.idx with
    | error e => simp [hd] at h
    | ok donor =>
      cases hwt : s.weights c.mod with
      | none => simp [hd, hwt] at h
      | some weight =>
        simp only [hd, hwt] at h
        split_ifs at h with hf
        obtain rfl := Except.ok.inj h
        push Not at hf
        exact ⟨rfl, Or.inr ⟨hsel, donor, weight, rfl, rfl, hf, rfl, rfl⟩⟩
  · obtain rfl := Except.ok.inj h
    exact ⟨rfl, Or.inl ⟨fun hs => hw hs.1, rfl, rfl, rfl⟩⟩

/-- A turn ends if the module is not to be edited, or has a donor that fits. -/
theorem exists_transplantOne {s : Loop} {c : Candidate}
    (h : Selected want includeMtp c.name c.idx → ∃ donor weight, donors c.idx = .ok donor ∧
      s.weights c.mod = some weight ∧ Fits env donor weight) :
    ∃ s', transplantOne env donors want includeMtp s c = .ok s' := by
  rw [transplantOne]
  split_ifs with hc hm hw
  · exact ⟨_, rfl⟩
  · exact ⟨_, rfl⟩
  · obtain ⟨donor, weight, hd, hwt, hf⟩ := h ⟨hw, fun hmtp => by simpa [hmtp] using hm⟩
    simp only [hd, hwt]
    rw [if_neg (by push Not; exact hf)]
    exact ⟨_, rfl⟩
  · exact ⟨_, rfl⟩

theorem foldlM_cons_ok {s s' : Loop} {c : Candidate} {cs : List Candidate}
    (h : (c :: cs).foldlM (transplantOne env donors want includeMtp) s = .ok s') :
    ∃ s₁, transplantOne env donors want includeMtp s c = .ok s₁ ∧
      cs.foldlM (transplantOne env donors want includeMtp) s₁ = .ok s' := by
  rw [List.foldlM_cons] at h
  cases h1 : transplantOne env donors want includeMtp s c with
  | error e => rw [h1] at h; cases h
  | ok s₁ => rw [h1] at h; exact ⟨s₁, rfl, h⟩

/-- The candidates still to come are of modules not seen, each once. -/
structure Fresh (s : Loop) (cs : List Candidate) : Prop where
  nodup : (cs.map Candidate.mod).Nodup
  unseen : ∀ c ∈ cs, c.mod ∉ s.seen

theorem Fresh.head {s : Loop} {c : Candidate} {cs : List Candidate} (h : Fresh s (c :: cs)) :
    c.mod ∉ s.seen := h.unseen c List.mem_cons_self

theorem Fresh.ne {s : Loop} {c c' : Candidate} {cs : List Candidate} (h : Fresh s (c :: cs))
    (hc' : c' ∈ cs) : c'.mod ≠ c.mod := fun he =>
  (List.nodup_cons.mp h.nodup).1 (List.mem_map.mpr ⟨c', hc', he⟩)

theorem Fresh.tail {s s₁ : Loop} {c : Candidate} {cs : List Candidate} (h : Fresh s (c :: cs))
    (hs : s₁.seen = c.mod :: s.seen) : Fresh s₁ cs where
  nodup := (List.nodup_cons.mp h.nodup).2
  unseen c' hc' hmem := by
    rw [hs] at hmem
    rcases List.mem_cons.mp hmem with he | hmem
    · exact h.ne hc' he
    · exact h.unseen c' (List.mem_cons_of_mem _ hc') hmem

/-- The turn of one candidate leaves the weights of the others. -/
theorem transplantOne_weights {s s₁ : Loop} {c : Candidate} (hc : c.mod ∉ s.seen)
    (h : transplantOne env donors want includeMtp s c = .ok s₁) {m : ModuleId}
    (hm : Selected want includeMtp c.name c.idx → c.mod ≠ m) : s₁.weights m = s.weights m := by
  obtain ⟨-, ⟨-, hw, -⟩ | ⟨hsel, _, _, -, -, -, hw, -⟩⟩ := transplantOne_cases hc h
  · rw [hw]
  · rw [hw, Function.update_of_ne (hm hsel).symm]

/-- The modules that are not to be edited keep their weights. -/
theorem transplantAll_frame {cs : List Candidate} {m : ModuleId} : ∀ {s s' : Loop}, Fresh s cs →
    (∀ c ∈ cs, Selected want includeMtp c.name c.idx → c.mod ≠ m) →
    cs.foldlM (transplantOne env donors want includeMtp) s = .ok s' →
      s'.weights m = s.weights m := by
  induction cs with
  | nil =>
    intro s s' _ _ h
    cases h
    rfl
  | cons c cs ih =>
    intro s s' hf hm h
    obtain ⟨s₁, h1, h2⟩ := foldlM_cons_ok h
    rw [ih (hf.tail (transplantOne_cases hf.head h1).1)
      (fun c' hc' => hm c' (List.mem_cons_of_mem _ hc')) h2]
    exact transplantOne_weights hf.head h1 (hm c List.mem_cons_self)

/-- **What the loop writes**: the modules that are to be edited hold the columns of this rank. -/
theorem transplantAll_edited {cs : List Candidate} : ∀ {s s' : Loop}, Fresh s cs →
    cs.foldlM (transplantOne env donors want includeMtp) s = .ok s' →
    ∀ c ∈ cs, Selected want includeMtp c.name c.idx → ∃ donor weight, donors c.idx = .ok donor ∧
      s.weights c.mod = some weight ∧ Fits env donor weight ∧
      s'.weights c.mod = some (shard env donor weight.cols) := by
  induction cs with
  | nil => exact fun _ _ _ hc => absurd hc List.not_mem_nil
  | cons c cs ih =>
    intro s s' hf h c' hc' hsel
    obtain ⟨s₁, h1, h2⟩ := foldlM_cons_ok h
    obtain ⟨hseen, hcase⟩ := transplantOne_cases hf.head h1
    rcases List.mem_cons.mp hc' with rfl | hc'
    · obtain ⟨hns, -⟩ | ⟨-, donor, weight, hd, hwt, hfit, hw, -⟩ := hcase
      · exact absurd hsel hns
      refine ⟨donor, weight, hd, hwt, hfit, ?_⟩
      rw [transplantAll_frame (hf.tail hseen) (fun c hc _ => hf.ne hc) h2, hw, Function.update_self]
    · obtain ⟨donor, weight, hd, hwt, hfit, hw⟩ := ih (hf.tail hseen) h2 c' hc' hsel
      refine ⟨donor, weight, hd, ?_, hfit, hw⟩
      rw [← hwt]
      exact (transplantOne_weights hf.head h1 fun _ => (hf.ne hc').symm).symm

/-- The report of the loop is empty exactly if there was nothing to edit. -/
theorem transplantAll_report {cs : List Candidate} : ∀ {s s' : Loop}, Fresh s cs →
    cs.foldlM (transplantOne env donors want includeMtp) s = .ok s' →
    ((∃ c ∈ cs, Selected want includeMtp c.name c.idx) → s'.report.editedLayers ≠ []) ∧
    (s.report.editedLayers ≠ [] → s'.report.editedLayers ≠ []) ∧
    ((∀ c ∈ cs, ¬ Selected want includeMtp c.name c.idx) →
      s'.report.editedLayers = s.report.editedLayers ∧
        s'.report.mtpEdited = s.report.mtpEdited) := by
  induction cs with
  | nil =>
    intro s s' _ h
    cases h
    simp
  | cons c cs ih =>
    intro s s' hf h
    obtain ⟨s₁, h1, h2⟩ := foldlM_cons_ok h
    obtain ⟨hseen, hcase⟩ := transplantOne_cases hf.head h1
    obtain ⟨i1, i2, i3⟩ := ih (hf.tail hseen) h2
    obtain ⟨hns, -, he, hb⟩ | ⟨hsel, _, _, -, -, -, -, he⟩ := hcase
    · refine ⟨?_, fun hne => i2 (he ▸ hne), fun hall => ?_⟩
      · rintro ⟨c', hc', hsel'⟩
        rcases List.mem_cons.mp hc' with rfl | hc'
        · exact absurd hsel' hns
        · exact i1 ⟨c', hc', hsel'⟩
      · obtain ⟨h3, h4⟩ := i3 fun c' hc' => hall c' (List.mem_cons_of_mem _ hc')
        exact ⟨h3.trans he, h4.trans hb⟩
    · have hne : s'.report.editedLayers ≠ [] := i2 (by rw [he]; simp)
      exact ⟨fun _ => hne, fun _ => hne, fun hall => absurd hsel (hall c List.mem_cons_self)⟩

/-- The loop ends if every module that is to be edited has a donor that fits. -/
theorem exists_transplantAll {cs : List Candidate} : ∀ {s : Loop}, Fresh s cs →
    (∀ c ∈ cs, Selected want includeMtp c.name c.idx → ∃ donor weight, donors c.idx = .ok donor ∧
      s.weights c.mod = some weight ∧ Fits env donor weight) →
    ∃ s', cs.foldlM (transplantOne env donors want includeMtp) s = .ok s' := by
  induction cs with
  | nil => exact fun _ _ => ⟨_, rfl⟩
  | cons c cs ih =>
    intro s hf h
    obtain ⟨s₁, h1⟩ := exists_transplantOne (h c List.mem_cons_self)
    have hseen := (transplantOne_cases hf.head h1).1
    obtain ⟨s', h2⟩ := ih (s := s₁) (hf.tail hseen) fun c' hc' hsel => by
      obtain ⟨donor, weight, hd, hwt, hfit⟩ := h c' (List.mem_cons_of_mem _ hc') hsel
      refine ⟨donor, weight, hd, ?_, hfit⟩
      rw [← hwt]
      exact transplantOne_weights hf.head h1 fun _ => (hf.ne hc').symm
    refine ⟨s', ?_⟩
    rw [List.foldlM_cons, h1]
    exact h2

end Loop

/-! ### A call of the hook -/

/-- The edit of the hook is on, by the donors. -/
structure Transplants (env : Env) (layers : List ℤ) : Prop where
  enabled : envFlag env.knobs.ABLIT false = true
  method : env.knobs.transplants = true
  layers : parseLayers env.knobs.layersSpec = .ok layers

theorem maybeApply_eq {env : Env} {layers : List ℤ} (ht : Transplants env layers) (M : Model)
    (w : Weights) : maybeApply env M w = transplant env M layers w := by
  rw [maybeApply, ht.enabled, ht.layers]
  simp [ht.method]

/-- **What a call that returns has done.** -/
theorem maybeApply_ok {env : Env} {layers : List ℤ} (ht : Transplants env layers) {M : Model}
    {w w' : Weights} {r : Option Report} (h : maybeApply env M w = .ok (w', r)) :
    ∃ listed cs s, transplantMeta env env.tdir layers = .ok listed ∧
      walkOProj M.textModel = .ok cs ∧
      cs.foldlM (transplantOne env (streamedDonors env env.tdir listed) layers env.knobs.includeMtp)
        ⟨[], w, ⟨[], [], false⟩⟩ = .ok s ∧
      w' = s.weights ∧ ¬ (s.report.editedLayers = [] ∧ s.report.mtpEdited = false) := by
  rw [maybeApply_eq ht, transplant] at h
  split_ifs at h
  cases hl : transplantMeta env env.tdir layers with
  | error e => simp [hl, bind, Except.bind] at h
  | ok listed =>
    cases hc : walkOProj M.textModel with
    | error e => simp [hl, hc, applyTransplant, bind, Except.bind] at h
    | ok cs =>
      cases hs : cs.foldlM (transplantOne env (streamedDonors env env.tdir listed) layers
          env.knobs.includeMtp) ⟨[], w, ⟨[], [], false⟩⟩ with
      | error e => simp [hl, hc, hs, applyTransplant, bind, Except.bind] at h
      | ok s =>
        simp only [hl, hc, hs, applyTransplant, bind, Except.bind, pure, Except.pure] at h
        split_ifs at h with he
        refine ⟨listed, cs, s, rfl, rfl, hs, ?_, fun hn => he ⟨?_, hn.2⟩⟩
        · exact (congrArg Prod.fst (Except.ok.inj h)).symm
        · rw [hn.1]
          rfl

/-- When a call returns. -/
theorem exists_maybeApply {env : Env} {layers : List ℤ} (ht : Transplants env layers) {M : Model}
    {w : Weights} {listed : List (ℤ × Info)} {cs : List Candidate} {s : Loop}
    (hl : transplantMeta env env.tdir layers = .ok listed) (hc : walkOProj M.textModel = .ok cs)
    (hs : cs.foldlM (transplantOne env (streamedDonors env env.tdir listed) layers
      env.knobs.includeMtp) ⟨[], w, ⟨[], [], false⟩⟩ = .ok s) (hne : s.report.editedLayers ≠ []) :
    ∃ w' r, maybeApply env M w = .ok (w', some r) := by
  have hm : env.tdir.manifest ≠ none := by
    obtain ⟨table, htab, -⟩ := transplantMeta_ok_iff.mp hl
    intro hn
    rw [Env.table, hn] at htab
    cases htab
  have hne' : s.report.editedLayers.insertionSort (· ≤ ·) ≠ [] := by
    rw [← List.length_pos_iff, List.length_insertionSort, List.length_pos_iff]
    exact hne
  rw [maybeApply_eq ht, transplant, if_neg hm]
  simp only [hl, hc, hs, applyTransplant, bind, Except.bind, pure, Except.pure, hne',
    false_and, if_false]
  exact ⟨_, _, rfl⟩

/-! ### The postcondition -/

/-- The columns of a rank. -/
def rankSlice (world rank : ℕ) (t : Mat Bf16) : Mat Bf16 :=
  t.slice (rank * (t.cols / world)) ((rank + 1) * (t.cols / world))

/-- Different names of `o_proj` modules name different modules. -/
def Model.Distinct (M : Model) : Prop :=
  ∀ e ∈ M.textModel, ∀ e' ∈ M.textModel, (oProj e.1).isSome → (oProj e'.1).isSome →
    e.2 = e'.2 → e.1 = e'.1

theorem shard_eq {env : Env} {donor weight : Mat Bf16} (hr : env.rank < env.world)
    (hf : Fits env donor weight) : shard env donor weight.cols =
      rankSlice env.world env.rank donor := by
  have hw : 0 < env.world := by omega
  have hcols : donor.cols / env.world = weight.cols := by rw [hf.2, Nat.mul_div_cancel _ hw]
  rw [shard, rankSlice, hcols]
  split_ifs with h1
  · have h0 : env.rank = 0 := by omega
    rw [h0, Nat.zero_mul, Nat.zero_add, Nat.one_mul]
    have : weight.cols = donor.cols := by rw [hf.2, h1, Nat.mul_one]
    rw [this, Mat.slice_all]
  · rfl

theorem IsOProj.isSome {name : Text} {idx : ℤ} (h : IsOProj name idx) : (oProj name).isSome := by
  rw [IsOProj, Option.bind_eq_some_iff] at h
  obtain ⟨d, hd, -⟩ := h
  rw [hd]
  rfl

/-- A module that is to be edited is a candidate of the walk. -/
theorem exists_candidate {M : Model} (hd : M.Distinct) {cs : List Candidate}
    (hc : walkOProj M.textModel = .ok cs) {e : Text × ModuleId} (he : e ∈ M.textModel) {idx : ℤ}
    (ho : IsOProj e.1 idx) : ∃ c ∈ cs, c.name = e.1 ∧ c.idx = idx ∧ c.mod = e.2 := by
  obtain ⟨h1, -, h3⟩ := walkFrom_spec hc
  obtain hnil | ⟨c, hcs, hm⟩ := h3 e he ho.isSome
  · cases hnil
  obtain ⟨hmem, hoc, -⟩ := h1 c hcs
  have hname : c.name = e.1 := hd (c.name, c.mod) hmem e he hoc.isSome ho.isSome hm
  refine ⟨c, hcs, hname, ?_, hm⟩
  rw [IsOProj, hname] at hoc
  exact Option.some.inj (hoc.symm.trans ho)

theorem fresh_walk {named : Named} {cs : List Candidate} (hc : walkOProj named = .ok cs)
    (w : Weights)
    (r : Report) : Fresh ⟨[], w, r⟩ cs :=
  ⟨(walkFrom_spec hc).2.1, fun _ _ => List.not_mem_nil⟩

/-- What the loop leaves in a module that is to be edited. -/
theorem transplantAll_replaced {env : Env} {layers : List ℤ} {M : Model} (hd : M.Distinct)
    (hr : env.rank < env.world) {w : Weights} {listed : List (ℤ × Info)}
    {cs : List Candidate} {s : Loop}
    (hl : transplantMeta env env.tdir layers = .ok listed) (hc : walkOProj M.textModel = .ok cs)
    (hs : cs.foldlM (transplantOne env (streamedDonors env env.tdir listed) layers
      env.knobs.includeMtp) ⟨[], w, ⟨[], [], false⟩⟩ = .ok s)
    {e : Text × ModuleId} (he : e ∈ M.textModel) {idx : ℤ} (ho : IsOProj e.1 idx)
    (hsel : Selected layers env.knobs.includeMtp e.1 idx) :
    ∃ donor, IsDonor env env.tdir idx donor ∧
      s.weights e.2 = some (rankSlice env.world env.rank donor) ∧
      donor.cols = donor.cols / env.world * env.world := by
  obtain ⟨c, hcs, hname, hidx, hm⟩ := exists_candidate hd hc he ho
  obtain ⟨donor, weight, hdon, -, hfit, hw⟩ :=
    transplantAll_edited (fresh_walk hc w _) hs c hcs (by rw [hname, hidx]; exact hsel)
  rw [hidx] at hdon
  rw [hm, shard_eq hr hfit] at hw
  refine ⟨donor, (streamedDonors_ok_iff hl hsel.1).mp hdon, hw, ?_⟩
  rw [hfit.2, Nat.mul_div_cancel _ (by omega)]

/-- **The postcondition of the transplant.** After a call that returns, the `o_proj` modules of the
layers named hold the columns of this rank of the verified donor, and every other module is
unchanged; the columns of all the ranks, side by side, are the donor. -/
theorem maybeApply_postcondition {env : Env} {layers : List ℤ}
    (ht : Transplants env layers) {M : Model}
    (hd : M.Distinct) (hr : env.rank < env.world) {w w' : Weights} {r : Option Report}
    (h : maybeApply env M w = .ok (w', r)) :
    (∀ e ∈ M.textModel, ∀ idx, IsOProj e.1 idx → Selected layers env.knobs.includeMtp e.1 idx →
      ∃ donor, IsDonor env env.tdir idx donor ∧
        w' e.2 = some (rankSlice env.world env.rank donor) ∧
        hcat donor.height ((List.range env.world).map fun rank => rankSlice env.world rank donor) =
          donor.rows) ∧
    ∀ m, (∀ e ∈ M.textModel, ∀ idx, IsOProj e.1 idx → Selected layers env.knobs.includeMtp e.1 idx →
      e.2 ≠ m) → w' m = w m := by
  obtain ⟨listed, cs, s, hl, hc, hs, rfl, -⟩ := maybeApply_ok ht h
  constructor
  · intro e he idx ho hsel
    obtain ⟨donor, hdon, hw, hcols⟩ := transplantAll_replaced hd hr hl hc hs he ho hsel
    exact ⟨donor, hdon, hw, hcat_slices donor hcols⟩
  · intro m hm
    refine transplantAll_frame (fresh_walk hc w _) (fun c hcs hsel => ?_) hs
    obtain ⟨hmem, ho, -⟩ := (walkFrom_spec hc).1 c hcs
    exact hm (c.name, c.mod) hmem c.idx ho hsel

/-! ### A run -/

/-- The sha256 of the bytes 1, 2, 3, 4. -/
def demoDigest : Text :=
  ['9', 'f', '6', '4', 'a', '7', '4', '7', 'e', '1', 'b', '9', '7', 'f', '1', '3', '1', 'f', 'a', 'b',
    'b', '6', 'b', '4', '4', '7', '2', '9', '6', 'c', '9', 'b', '6', 'f', '0', '2', '0', '1', 'e', '7',
    '9', 'f', 'b', '3', 'c', '5', '3', '5', '6', 'e', '6', 'c', '7', '7', 'e', '8', '9', 'b', '6', 'a',
    '8', '0', '6', 'a']

/-- The second of two ranks, with a donor of one row for layer 0. -/
def demoEnv : Env where
  knobs := ⟨some ['1'], none, some ['t', 'r', 'a', 'n', 's', 'p', 'l', 'a', 'n', 't'],
    some ['0'], none⟩
  world := 2
  rank := 1
  dir _ := ⟨fun L => if L = 0 then some [1, 2, 3, 4] else none, fun _ => none,
    some (Json.dumps (.obj [(['l', 'a', 'y', 'e', 'r', 's'], .obj [(['0'], .obj [
      (['d', 't', 'y', 'p', 'e'], .str ['B', 'F', '1', '6']),
      (['s', 'h', 'a', 'p', 'e'], .arr [.int 1, .int 2]),
      (['n', 'b', 'y', 't', 'e', 's'], .int 4),
      (['s', 'h', 'a', '2', '5', '6'], .str demoDigest)])])]))⟩
  loads _ := some ⟨[(['0'], ⟨some 4, some ['B', 'F', '1', '6'], some demoDigest, some [1, 2]⟩)], []⟩
  hexdigest _ := demoDigest
  proj _ _ _ _ := .error .other

/-- `layers.0.self_attn.o_proj`. -/
def demoName : Text := ['l', 'a', 'y', 'e', 'r', 's', '.', '0', '.'] ++ selfAttn ++
  ['.', 'o', '_', 'p', 'r', 'o', 'j']

/-- A model of one module. -/
def demoModel : Model := ⟨[(demoName, 0)], none⟩

/-- Its weights on a rank. -/
def demoWeights : Weights := fun _ => some ⟨[[(0, 0)]], 1, by simp⟩

/-- The call on the second rank returns, and the module holds the second column. -/
theorem maybeApply_postcondition_second : ∃ w' r donor, maybeApply demoEnv demoModel demoWeights =
    .ok (w', r) ∧
    IsDonor demoEnv demoEnv.tdir 0 donor ∧ w' 0 = some (rankSlice 2 1 donor) := by
  have hok : (maybeApply demoEnv demoModel demoWeights).toOption.isSome = true := by decide +kernel
  cases h : maybeApply demoEnv demoModel demoWeights with
  | error e => simp [h, Except.toOption] at hok
  | ok p =>
    have ht : Transplants demoEnv [0] := ⟨by decide +kernel, by decide +kernel, by decide +kernel⟩
    have hd : demoModel.Distinct := by
      intro e he e' he' _ _ _
      rw [List.mem_singleton.mp he, List.mem_singleton.mp he']
    obtain ⟨hall, -⟩ := maybeApply_postcondition ht hd (by decide) h
    obtain ⟨donor, hdon, hw, -⟩ := hall (demoName, 0) (List.mem_singleton.mpr rfl) 0
      (by unfold IsOProj; decide +kernel) ⟨by simp, fun _ => by decide +kernel⟩
    exact ⟨p.1, p.2, donor, rfl, hdon, hw⟩

end Glm53Serve.Ablit.Runtime
