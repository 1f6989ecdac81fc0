import Glm53Serve.KvPool.Layout

/-!
# The drafter's group

`_get_kv_cache_groups_glm5_next` builds a group of the layers of the drafter, with blocks
that fill a page of the MLA layers exactly or are padded to it, and
`_glm5_next_tensor_layout` checks that group.

## The model

The part of the first function that builds the group. Its mamba groups have pages of the MLA
layers, to which it pads them.

## What is proved

* `buildDraftGroup_some` — the group that is built.
* `draft_agree_iff` — of which drafters the layout accepts the group, and that they ride.
-/

namespace Glm53Serve.KvPool

variable {Name : Type}

/-! ### Building the group -/

/-- `fit_block`. -/
def fitBlock (mlaPage draftBytesPerToken : ℕ) : ℕ :=
  if mlaPage % draftBytesPerToken = 0 then mlaPage / draftBytesPerToken else 0

/-- The conditions for an exact fit. -/
def exactFit (g : Groups Name) (numDraft fit : ℕ) : Bool :=
  fit ≠ 0 && fit % 64 = 0 && (fit % g.mlaBlock = 0 || g.mlaBlock % fit = 0) &&
    numDraft ≤ g.mlaNames.length

/-- A spec with blocks of 64 tokens, padded to the page of the MLA layers. -/
def compact (g : Groups Name) (spec : SwaSpec) : SwaSpec :=
  { spec with blockSize := 64, pageSizePadded := some g.mlaPage }

/-- The spec that replaces a spec of the drafter. -/
def replaceSpec (g : Groups Name) (numDraft fit : ℕ) (spec : SwaSpec) : SwaSpec :=
  if exactFit g numDraft fit then { spec with blockSize := fit } else compact g spec

variable (pageSizeBytes : SwaSpec → Except PyError ℕ)

/-- The drafter's group of `_get_kv_cache_groups_glm5_next`, of `draft_specs`. -/
def buildDraftGroup (g : Groups Name) (draftSpecs : List (Name × SwaSpec)) :
    Except PyError (Option (DraftGroup Name)) :=
  match draftSpecs with
  | [] => .ok none
  | (name, anyDraft) :: rest =>
    if rest.any fun p => p.2 ≠ anyDraft then .error .assertionError
    else
      (pageSizeBytes anyDraft).bind fun page =>
        if anyDraft.blockSize = 0 then .error .zeroDivisionError
        else if g.mlaNames = [] then .error .indexError
        else if page / anyDraft.blockSize = 0 then .error .zeroDivisionError
        else
          let fit := fitBlock g.mlaPage (page / anyDraft.blockSize)
          .ok (some ⟨((name, anyDraft) :: rest).map fun p =>
            (p.1, replaceSpec g (rest.length + 1) fit p.2),
            List.cons_ne_nil _ _⟩)

variable {pageSizeBytes}

/-- The block of an exact fit of a drafter. -/
def fitOf (g : Groups Name) (spec : SwaSpec) (page : ℕ) : ℕ :=
  fitBlock g.mlaPage (page / spec.blockSize)

/-- **The group that is built**: every layer has the spec that replaces the drafter's. -/
theorem buildDraftGroup_some {g : Groups Name} {draftSpecs : List (Name × SwaSpec)}
    {d : DraftGroup Name}
    (h : buildDraftGroup pageSizeBytes g draftSpecs = .ok (some d)) :
    ∃ spec page, (∀ p ∈ draftSpecs, p.2 = spec) ∧ draftSpecs ≠ [] ∧ pageSizeBytes spec = .ok page ∧
      0 < spec.blockSize ∧ d.layerNames = draftSpecs.map Prod.fst ∧
      ∀ p ∈ d.kvCacheSpecs, p.2 = replaceSpec g draftSpecs.length (fitOf g spec page) spec := by
  unfold buildDraftGroup at h
  rcases draftSpecs with _ | ⟨⟨name, spec⟩, rest⟩
  · simp at h
  · rcases hpage : pageSizeBytes spec with e | page
    · simp only [hpage, Except.bind] at h
      split_ifs at h
    · simp only [hpage, Except.bind] at h
      split_ifs at h with hsame hblock
      cases h
      have hspecs : ∀ p ∈ (name, spec) :: rest, p.2 = spec := by simpa using hsame
      refine ⟨spec, page, hspecs, List.cons_ne_nil _ _, hpage, Nat.pos_of_ne_zero hblock, ?_, ?_⟩
      · simp [DraftGroup.layerNames]
      · intro p hp
        obtain ⟨q, hq, rfl⟩ := List.mem_map.mp hp
        rw [hspecs q hq]
        rfl

/-! ### What the layout makes of it -/

/-- What is relied on of `page_size_bytes`: the page of a spec that is not padded is the real one,
and that of a padded one is the padding, which has to hold the real one. -/
structure PageSizes (pageSizeBytes : SwaSpec → Except PyError ℕ) : Prop where
  real : ∀ spec, spec.pageSizePadded = none →
    pageSizeBytes spec = .ok (spec.blockSize * spec.bytesPerToken)
  padded : ∀ spec page, spec.pageSizePadded = some page →
    spec.blockSize * spec.bytesPerToken ≤ page →
    pageSizeBytes spec = .ok page
  short : ∀ spec page, spec.pageSizePadded = some page →
    page < spec.blockSize * spec.bytesPerToken →
    pageSizeBytes spec = .ok page ∨ ∃ e, pageSizeBytes spec = .error e

theorem PageSizes.of_padded (h : PageSizes pageSizeBytes) {spec : SwaSpec} {page p : ℕ}
    (hpad : spec.pageSizePadded = some page) (hp : pageSizeBytes spec = .ok p) : p = page := by
  rcases Nat.lt_or_ge page (spec.blockSize * spec.bytesPerToken) with hlt | hge
  · rcases h.short spec page hpad hlt with hok | ⟨e, he⟩
    · exact Except.ok.inj (hp.symm.trans hok)
    · rw [hp] at he
      cases he
  · exact Except.ok.inj (hp.symm.trans (h.padded spec page hpad hge))

/-- An exact fit fills the page of the MLA layers. -/
theorem fitBlock_mul {mlaPage bytes : ℕ} (h : fitBlock mlaPage bytes ≠ 0) :
    fitBlock mlaPage bytes * bytes = mlaPage := by
  unfold fitBlock at h ⊢
  split_ifs at h ⊢ with hmod
  · exact Nat.div_mul_cancel (Nat.dvd_of_mod_eq_zero hmod)
  · exact absurd rfl h

/-- The specs for which the layout agrees: an exact fit of a spec that is not padded; or 64 tokens
padded to the page of the MLA layers, which hold them. -/
def SpecAgrees (pageSizeBytes : SwaSpec → Except PyError ℕ) (g : Groups Name) (numDraft : ℕ)
    (spec : SwaSpec) (page : ℕ) : Prop :=
  (exactFit g numDraft (fitOf g spec page) = true ∧ spec.pageSizePadded = none) ∨
    ((exactFit g numDraft (fitOf g spec page) = true →
        fitOf g spec page = 64 ∧ spec.pageSizePadded = some g.mlaPage) ∧
      ∃ p, pageSizeBytes (compact g spec) = .ok p)

/-- The spec that is built passes the checks on its page, and has that of the MLA layers. -/
theorem replaceSpec_agrees (h : PageSizes pageSizeBytes) {g : Groups Name} {numDraft page : ℕ}
    {spec : SwaSpec} (hpage : pageSizeBytes spec = .ok page) (hblock : 0 < spec.blockSize) :
    SpecAgrees pageSizeBytes g numDraft spec page ↔
      ∃ p, pageSizeBytes (replaceSpec g numDraft (fitOf g spec page) spec) = .ok p ∧ p = g.mlaPage ∧
        ((replaceSpec g numDraft (fitOf g spec page) spec).pageSizePadded = none ∨
          (replaceSpec g numDraft (fitOf g spec page) spec).blockSize = 64 ∧
          (replaceSpec g numDraft (fitOf g spec page) spec).pageSizePadded = some g.mlaPage) := by
  unfold SpecAgrees replaceSpec
  have hcompact : ∀ p, pageSizeBytes (compact g spec) = .ok p → p = g.mlaPage := fun p hp =>
    h.of_padded rfl hp
  by_cases hfit : exactFit g numDraft (fitOf g spec page) = true
  · rw [if_pos hfit]
    simp only [hfit, true_and, true_implies]
    constructor
    · rintro (hpad | ⟨⟨h64, hpad⟩, p, hp⟩)
      · -- Not padded: the block of the fit fills the page.
        have hne : fitOf g spec page ≠ 0 := by
          intro hzero
          rw [hzero] at hfit
          simp [exactFit] at hfit
        have hreal : page = spec.blockSize * spec.bytesPerToken :=
          Except.ok.inj (hpage.symm.trans (h.real spec hpad))
        have hbytes : page / spec.blockSize = spec.bytesPerToken := by
          rw [hreal, Nat.mul_div_cancel_left _ hblock]
        refine ⟨_, h.real _ hpad, ?_, .inl hpad⟩
        rw [← hbytes]
        exact fitBlock_mul hne
      · have heq : ({ spec with blockSize := fitOf g spec page } : SwaSpec) = compact g spec := by
          rw [h64, compact, ← hpad]
        exact ⟨p, heq ▸ hp, hcompact p hp, .inr ⟨h64, hpad⟩⟩
    · rintro ⟨p, hp, -, hpad | ⟨h64, hpad⟩⟩
      · exact .inl hpad
      · have heq : ({ spec with blockSize := fitOf g spec page } : SwaSpec) = compact g spec := by
          rw [show fitOf g spec page = 64 from h64, compact,
            ← show spec.pageSizePadded = _ from hpad]
        exact .inr ⟨⟨h64, hpad⟩, p, heq ▸ hp⟩
  · rw [if_neg hfit]
    constructor
    · rintro (⟨h1, -⟩ | ⟨-, p, hp⟩)
      · exact absurd h1 hfit
      · exact ⟨p, hp, hcompact p hp, .inr ⟨rfl, rfl⟩⟩
    · rintro ⟨p, hp, -⟩
      exact .inr ⟨fun h1 => absurd h1 hfit, p, hp⟩

/-- The checks on a drafter's group all of whose layers have one spec. -/
theorem draftAccepted_uniform {g : Groups Name} {d : DraftGroup Name} {spec : SwaSpec}
    (hspecs : ∀ p ∈ d.kvCacheSpecs, p.2 = spec) :
    draftAccepted pageSizeBytes g d = .ok true ↔
      ∃ page, pageSizeBytes spec = .ok page ∧
        (spec.pageSizePadded = none ∨ spec.blockSize = 64 ∧ spec.pageSizePadded = some g.mlaPage) ∧
        (page = g.mlaPage → d.layerNames.length ≤ g.mlaNames.length) := by
  have hwell : paddedWell g d = true ↔
      (spec.pageSizePadded = none ∨ spec.blockSize = 64 ∧
          spec.pageSizePadded = some g.mlaPage) := by
    have hany : ∀ f : SwaSpec → Bool, d.kvCacheSpecs.any (fun p => f p.2) = f spec := by
      intro f
      rw [Bool.eq_iff_iff, List.any_eq_true]
      constructor
      · rintro ⟨p, hp, hf⟩
        exact hspecs p hp ▸ hf
      · intro hf
        obtain ⟨p, hp⟩ := List.exists_mem_of_ne_nil _ d.kvCacheSpecs_ne
        exact ⟨p, hp, (hspecs p hp).symm ▸ hf⟩
    rw [paddedWell, hany fun spec => spec.pageSizePadded.isSome,
      hany fun spec => spec.blockSize ≠ 64 || spec.pageSizePadded ≠ some g.mlaPage]
    simp
  rw [draftAccepted_iff, hwell]
  constructor
  · rintro ⟨page, hpage, hrest⟩
    obtain ⟨p, hp⟩ := List.exists_mem_of_ne_nil _ d.kvCacheSpecs_ne
    exact ⟨page, hspecs p hp ▸ hpage p hp, hrest⟩
  · rintro ⟨page, hpage, hrest⟩
    exact ⟨page, fun p hp => (hspecs p hp).symm ▸ hpage, hrest⟩

/-- The layout accepts a drafter's group, which rides in the MLA tensors if there is one for each of
its layers, and has tensors of its own otherwise. -/
def LayoutAgrees (pageSizeBytes : SwaSpec → Except PyError ℕ) (g : Groups Name)
    (d : DraftGroup Name) : Prop :=
  ∃ draft, tensorLayout pageSizeBytes g (some d) = .ok (some ⟨g, some d⟩) ∧
    Layout.draft pageSizeBytes ⟨g, some d⟩ = .ok draft ∧
    (draft.draftShared = true ↔ d.layerNames.length ≤ g.mlaNames.length)

/-- The layout agrees with a group of layers of the spec that replaces the drafter's if there is an
MLA tensor for each, and the spec passes the checks and has the page of the MLA layers. -/
theorem layoutAgrees_built (h : PageSizes pageSizeBytes) {g : Groups Name}
    (hmamba : ∀ group ∈ g.mambaGroups, group.pageSizeBytes = g.mlaPage) {d : DraftGroup Name}
    {spec : SwaSpec} {fit : ℕ}
    (hbuilt : ∀ p ∈ d.kvCacheSpecs, p.2 = replaceSpec g d.layerNames.length fit spec) :
    LayoutAgrees pageSizeBytes g d ↔
      d.layerNames.length ≤ g.mlaNames.length ∧
        ∃ p, pageSizeBytes (replaceSpec g d.layerNames.length fit spec) = .ok p ∧ p = g.mlaPage ∧
          ((replaceSpec g d.layerNames.length fit spec).pageSizePadded = none ∨
            (replaceSpec g d.layerNames.length fit spec).blockSize = 64 ∧
            (replaceSpec g d.layerNames.length fit spec).pageSizePadded = some g.mlaPage) := by
  have hfirst : d.draftPage pageSizeBytes = pageSizeBytes
      (replaceSpec g d.layerNames.length fit spec) :=
    congrArg pageSizeBytes (hbuilt _ (List.head_mem d.kvCacheSpecs_ne))
  constructor
  · rintro ⟨draft, hlayout, hdraft, hshared⟩
    obtain ⟨p, hp, hwell, hride⟩ :=
      (draftAccepted_uniform hbuilt).mp ((tensorLayout_ok hlayout).2 d rfl)
    have hdraft' : draft = ⟨d.layerNames, p, decide (p = g.mlaPage)⟩ := by
      simp only [Layout.draft, hfirst, hp, Except.map, Except.ok.injEq] at hdraft
      exact hdraft.symm
    rw [hdraft', decide_eq_true_eq] at hshared
    -- An exact fit needs an MLA tensor for each layer; otherwise the page is padded.
    have hpmla : p = g.mlaPage := by
      by_cases hfit : exactFit g d.layerNames.length fit = true
      · simp only [exactFit, Bool.and_eq_true, decide_eq_true_eq] at hfit
        exact hshared.mpr hfit.2
      · rw [replaceSpec, if_neg hfit] at hp
        exact h.of_padded rfl hp
    exact ⟨hride hpmla, p, hp, hpmla, hwell⟩
  · rintro ⟨hle, p, hp, hpmla, hwell⟩
    have hpass : (g.mambaGroups.any fun group => group.pageSizeBytes ≠ g.mlaPage) = false := by
      simpa using hmamba
    have haccepted := (draftAccepted_uniform hbuilt).mpr ⟨p, hp, hwell, fun _ => hle⟩
    refine ⟨⟨d.layerNames, p, decide (p = g.mlaPage)⟩, ?_, ?_, ?_⟩
    · simp only [tensorLayout, hpass, Bool.false_eq_true, if_false, haccepted, Except.map, if_true]
    · simp only [Layout.draft, hfirst, hp, Except.map]
    · simp only [hpmla, decide_true, true_iff]
      exact hle

/-- **When the two agree.** Of a drafter for which a group is built, the layout accepts that group
as designed if and only if there is an MLA tensor for each of its layers, and its spec is one of
`SpecAgrees`. -/
theorem draft_agree_iff (h : PageSizes pageSizeBytes) {g : Groups Name}
    (hmamba : ∀ group ∈ g.mambaGroups, group.pageSizeBytes = g.mlaPage)
    {draftSpecs : List (Name × SwaSpec)} {d : DraftGroup Name}
    (hd : buildDraftGroup pageSizeBytes g draftSpecs = .ok (some d)) :
    LayoutAgrees pageSizeBytes g d ↔
      draftSpecs.length ≤ g.mlaNames.length ∧
        ∀ p ∈ draftSpecs, ∀ page, pageSizeBytes p.2 = .ok page →
          SpecAgrees pageSizeBytes g draftSpecs.length p.2 page := by
  obtain ⟨spec, page, hspecs, hne, hpage, hblock, hnames, hbuilt⟩ := buildDraftGroup_some hd
  have hlen : draftSpecs.length = d.layerNames.length := by rw [hnames, List.length_map]
  have hinputs : (∀ p ∈ draftSpecs, ∀ page, pageSizeBytes p.2 = .ok page →
      SpecAgrees pageSizeBytes g draftSpecs.length p.2 page) ↔
      SpecAgrees pageSizeBytes g draftSpecs.length spec page := by
    constructor
    · intro hall
      obtain ⟨p, hp⟩ := List.exists_mem_of_ne_nil _ hne
      exact hspecs p hp ▸ hall p hp page ((hspecs p hp).symm ▸ hpage)
    · intro hspec p hp page' hpage'
      rw [hspecs p hp] at hpage' ⊢
      exact Except.ok.inj (hpage.symm.trans hpage') ▸ hspec
  rw [hinputs, replaceSpec_agrees h hpage hblock]
  rw [hlen] at hbuilt ⊢
  exact layoutAgrees_built h hmamba hbuilt

/-! ### Two drafters -/

theorem assertedPage_pageSizes : PageSizes assertedPage where
  real spec h := by simp [assertedPage, h]
  padded spec page h hle := by simp [assertedPage, h, hle]
  short spec page h hlt := .inr ⟨.assertionError, by simp [assertedPage, h, not_le.mpr hlt]⟩

/-- The drafter layers of the given names. -/
def draftLayers (names : List ℕ) : List (ℕ × SwaSpec) :=
  names.map fun name => (name, ⟨16, none, 8, 2048⟩)

/-- Two layers ride in the two MLA tensors, padded. -/
theorem draft_agree_two : ∃ d, buildDraftGroup assertedPage smallGroups (draftLayers [6, 7]) =
    .ok (some d) ∧
    LayoutAgrees assertedPage smallGroups d := by
  refine ⟨_, rfl, (draft_agree_iff assertedPage_pageSizes (by decide)
    (show buildDraftGroup assertedPage smallGroups (draftLayers [6, 7]) =
      .ok (some _) from rfl)).mpr
    ⟨by decide, fun p hp page hpage => ?_⟩⟩
  obtain ⟨name, -, rfl⟩ := List.mem_map.mp hp
  cases hpage
  dsimp only
  exact .inr ⟨by decide, 640, by simp [assertedPage, compact, smallGroups]⟩

/-- Of three layers, more than the MLA tensors, the group is padded all the same, and the layout
does not accept it. -/
theorem draft_disagree_three :
    ∃ d, buildDraftGroup assertedPage smallGroups (draftLayers [6, 7, 8]) = .ok (some d) ∧
      tensorLayout assertedPage smallGroups (some d) = .ok none :=
  ⟨_, rfl, rfl⟩

end Glm53Serve.KvPool
