import Glm53Serve.Sglang.Validate

/-!
# The two ranks

The head starts its container from its own shell, after the fallbacks and with the environment
it was called in. The worker gets a list of variables over SSH and takes the rest from the files.
A variable outside the list that the files do not assign differs as soon as the head has another
value for it than the default of the compose file.

## The model

`headProcess` and `workerProcess` are the environments of the two compose commands; both read the
same two files. What a node has of its own (its rank, its cache, its interfaces) is not compared.

## What is proved

* `workerLookup_plain` — on the worker, compose sees the files where nothing is forwarded.
* `ranks_agree_iff` — after the required variables are checked, the containers agree exactly when
  the files fix the image, `MASTER_ADDR` and every other setting whose value on the head is not
  the default.
-/

namespace Glm53Serve.Sglang

open Py Environ

/-! ### The two containers -/

/-- The variables that `glm53_worker_compose` forwards; the login shell of the worker defines
none of the variables. -/
def forwarded (sh : Shell) : EnvFile :=
  [(.nodeRank, ['1']), (.headless, ['1']),
    (.profileTier, text sh .profileTier), (.profileRuntimeImage, text sh .profileRuntimeImage),
    (.speculativeAlgorithm, text sh .speculativeAlgorithm),
    (.dflashDraftModelPath, text sh .dflashDraftModelPath),
    (.dflashDraftAttentionBackend, text sh .dflashDraftAttentionBackend),
    (.dflashDraftWindowSize, text sh .dflashDraftWindowSize),
    (.mambaSsmDtype, text sh .mambaSsmDtype), (.maxMambaCacheSize, text sh .maxMambaCacheSize),
    (.hfCache, text sh .workerHfCache), (.modelSnapshotContainer, text sh .modelSnapshotContainer),
    (.headFabricIp, text sh .headFabricIp), (.workerFabricIp, text sh .workerFabricIp),
    (.ncclIbHca, orDefault (text sh .ncclIbHca) (sh .workerNcclIbHca)),
    (.ncclSocketIfname, orDefault (text sh .ncclSocketIfname) (sh .workerNcclSocketIfname)),
    (.tpSocketIfname, orDefault (text sh .tpSocketIfname) (sh .workerTpSocketIfname)),
    (.glooSocketIfname, orDefault (text sh .glooSocketIfname) (sh .workerGlooSocketIfname)),
    (.ncclIbAddrRange, orDefault (text sh .ncclIbAddrRange) (sh .workerNcclIbAddrRange))]

/-- `glm53_worker_compose`. -/
def workerProcess (l : Loaded) : Process where
  vars := assigned (forwarded l.shell)
  profileResolved := some l.profileResolved

/-- What compose looks up on the worker, where the two files are copies of the head's. -/
def workerLookup (i : Inputs) (l : Loaded) : Shell :=
  composeLookup (workerProcess l).vars i.envFile l.profile

/-- The variables of a node. -/
def perNode : List Var :=
  [.nodeRank, .headless, .hfCache, .ncclIbHca, .ncclSocketIfname, .tpSocketIfname,
    .glooSocketIfname, .ncclIbAddrRange]

/-- The settings of the containers agree, but for those of a node. -/
structure RanksAgree (i : Inputs) (l : Loaded) : Prop where
  image : ∃ t, image (headLookup i l) = some t ∧ image (workerLookup i l) = some t
  profileName : (headProcess l).profileName = (workerProcess l).profileName
  settings : ∀ s ∈ settings, s.var ∉ perNode →
    s.value (headLookup i l) = s.value (workerLookup i l)

/-! ### What the files fix -/

/-- What the two files say of a variable. -/
def filed (i : Inputs) (profile : EnvFile) (x : Var) : Option Text :=
  (assigned profile x).or (assigned i.envFile x)

/-- The compared settings that reach the worker. -/
def forwardedVars : List Var :=
  [.profileTier, .speculativeAlgorithm, .dflashDraftModelPath, .dflashDraftAttentionBackend,
    .dflashDraftWindowSize, .mambaSsmDtype, .maxMambaCacheSize, .modelSnapshotContainer]

/-- The settings with an old name. -/
def aliasedVars : List Var := [.apiHost, .apiPort, .apiKey]

/-- The files fix what the head would fill in from somewhere else. -/
structure FilesFix (i : Inputs) (profile : EnvFile) : Prop where
  /-- The profile has its own image, or the files name the image under its canonical name. -/
  image : orDefault [] (assigned profile .profileRuntimeImage) ≠ [] ∨
    orDefault [] (filed i profile .glm53RuntimeImage) ≠ []
  masterAddr : orDefault [] (filed i profile .masterAddr) ≠ []
  /-- An old name, or the environment of the head, gives the default. -/
  aliased : ∀ a ∈ aliases, a.1 ∈ aliasedVars → orDefault [] (filed i profile a.1) = [] →
    orDefault (orDefault a.2.2 (told i profile a.2.1)) (told i profile a.1) = a.2.2
  /-- Where the files say nothing, the environment of the head has the default or nothing. -/
  ambient : ∀ s ∈ settings, s.var ∉ perNode ++ forwardedVars ++ aliasedVars ++ [.masterAddr] →
    filed i profile s.var = none → orDefault s.default (i.ambient s.var) = s.default

/-! ### One setting -/

theorem told_eq (i : Inputs) (profile : EnvFile) (x : Var) :
    told i profile x = (filed i profile x).or (i.ambient x) := rfl

/-- On the worker, compose sees the files where nothing is forwarded. -/
theorem workerLookup_plain {x : Var} (hx : x ∉ (forwarded fun _ => none).map (·.1)) (i : Inputs)
    (l : Loaded) : workerLookup i l x = filed i l.profile x := by
  have hnone : assigned (forwarded l.shell) x = none := by
    rw [assigned, Option.map_eq_none_iff, List.find?_eq_none]
    intro a ha
    rw [decide_eq_true_eq]
    rintro rfl
    exact hx (List.mem_map_of_mem (List.mem_reverse.mp ha) : a.1 ∈ (forwarded l.shell).map (·.1))
  simp only [workerLookup, composeLookup, workerProcess, hnone, Option.none_or]
  rfl

theorem workerLookup_forwarded {x : Var} (hx : x ∈ .profileRuntimeImage :: forwardedVars)
    (i : Inputs)
    (l : Loaded) : workerLookup i l x = some (text l.shell x) := by
  simp only [forwardedVars, List.mem_cons, List.not_mem_nil, or_false] at hx
  rcases hx with rfl | rfl | rfl | rfl | rfl | rfl | rfl | rfl | rfl <;> rfl

/-- A setting that nothing but the environment of the head can change. -/
theorem plain_iff {i : Inputs} {l : Loaded} (hl : loadConfig i = some l) {s : Setting}
    (hs : s ∈ settings) (hx : s.var ∉ perNode ++ forwardedVars ++ aliasedVars ++ [.masterAddr]) :
    s.value (headLookup i l) = s.value (workerLookup i l) ↔
      (filed i l.profile s.var = none → orDefault s.default (i.ambient s.var) = s.default) := by
  have hplain : ∀ s ∈ settings, s.var ∉ perNode ++ forwardedVars ++ aliasedVars ++ [.masterAddr] →
      s.var ∉ selectorVars ∧ s.var ∉ fallbackVars ∧ s.var ∉ derivedVars ∧
        s.var ≠ .nodeRank ∧ s.var ≠ .headless ∧ s.var ∉ (forwarded fun _ => none).map (·.1) := by
    decide
  obtain ⟨hsel, hfall, hder, hrank, hheadless, hforward⟩ := hplain s hs hx
  rw [Setting.value, Setting.value, headLookup_apply hl hrank hheadless,
    loadConfig_plain hl hsel hfall hder,
    workerLookup_plain hforward, told_eq]
  cases filed i l.profile s.var with
  | none =>
    rw [Option.none_or]
    exact ⟨fun h _ => h, fun h => h rfl⟩
  | some t => exact ⟨fun _ h => (nomatch h), fun _ => rfl⟩

theorem forwarded_agree {i : Inputs} {l : Loaded} (hl : loadConfig i = some l) {s : Setting}
    (hx : s.var ∈ forwardedVars) : s.value (headLookup i l) = s.value (workerLookup i l) := by
  have hrank : s.var ≠ .nodeRank ∧ s.var ≠ .headless := by
    constructor <;>
    · intro h
      rw [h] at hx
      revert hx
      decide
  rw [Setting.value, Setting.value, headLookup_apply hl hrank.1 hrank.2,
    workerLookup_forwarded (List.mem_cons_of_mem _ hx), text, orDefault_some_orDefault]

/-- What the files say of a variable, if it is not empty, is what they and the environment say. -/
theorem told_of_filed {i : Inputs} {profile : EnvFile} {x : Var}
    (h : orDefault [] (filed i profile x) ≠ []) : told i profile x = filed i profile x := by
  rw [told_eq]
  cases hf : filed i profile x with
  | none =>
    rw [hf] at h
    exact absurd rfl h
  | some t => rfl

/-- A setting with an old name. -/
theorem aliased_iff {i : Inputs} {l : Loaded} (hl : loadConfig i = some l) {a : Var × Var × Text}
    (ha : a ∈ aliases) :
    orDefault a.2.2 (l.shell a.1) = orDefault a.2.2 (filed i l.profile a.1) ↔
      (orDefault [] (filed i l.profile a.1) = [] →
        orDefault (orDefault a.2.2 (told i l.profile a.2.1)) (told i l.profile a.1) = a.2.2) := by
  rw [loadConfig_aliased hl ha]
  by_cases hfiled : orDefault [] (filed i l.profile a.1) = []
  · rw [orDefault_of_eq_nil hfiled]
    generalize ht : orDefault (orDefault a.2.2 (told i l.profile a.2.1)) (told i l.profile a.1) = t
    cases t with
    | nil =>
      have hd := eq_nil_of_orDefault (eq_nil_of_orDefault ht)
      exact ⟨fun _ _ => hd.symm, fun _ => rfl⟩
    | cons c t => exact ⟨fun h _ => h, fun h => h hfiled⟩
  · rw [told_of_filed hfiled, orDefault_of_ne_nil hfiled, orDefault_of_ne_nil hfiled,
      orDefault_some_orDefault]
    exact ⟨fun _ h => absurd h hfiled, fun _ => rfl⟩

/-- The head has an address of the master, the worker only one from the files. -/
theorem masterAddr_iff {i : Inputs} {l : Loaded} (hl : loadConfig i = some l)
    (hreq : requiredOk l.shell = true) :
    orDefault [] (l.shell .masterAddr) = orDefault [] (filed i l.profile .masterAddr) ↔
      orDefault [] (filed i l.profile .masterAddr) ≠ [] := by
  constructor
  · intro h
    rw [← h]
    exact requiredOk_nonempty hreq (by decide)
  · intro h
    obtain ⟨d, hd⟩ := loadConfig_masterAddr hl
    rw [hd, told_of_filed h, orDefault_nil_some, orDefault_of_ne_nil h]

/-- The image is the profile's, or the worker has it from the files. -/
theorem image_iff {i : Inputs} {l : Loaded} (hl : loadConfig i = some l)
    (hreq : requiredOk l.shell = true) :
    (∃ t, image (headLookup i l) = some t ∧ image (workerLookup i l) = some t) ↔
      (orDefault [] (assigned l.profile .profileRuntimeImage) ≠ [] ∨
        orDefault [] (filed i l.profile .glm53RuntimeImage) ≠ []) := by
  have hprofile := loadConfig_profileImage hl
  have hhead := requiredOk_nonempty hreq (x := .glm53RuntimeImage) (by decide)
  have hworker : workerLookup i l .glm53RuntimeImage = filed i l.profile .glm53RuntimeImage :=
    workerLookup_plain (by decide) i l
  rw [text] at hhead
  simp only [image, headLookup_apply hl (x := .profileRuntimeImage) (by decide) (by decide),
    headLookup_apply hl (x := .glm53RuntimeImage) (by decide) (by decide),
    workerLookup_forwarded (x := .profileRuntimeImage) List.mem_cons_self, hworker, text, hprofile,
    orDefault_some_orDefault]
  cases hp : orDefault [] (assigned l.profile .profileRuntimeImage) with
  | cons c t =>
    rw [orDefault_of_ne_nil (by rw [hp]; exact List.cons_ne_nil _ _), hp,
      orDefault_of_ne_nil (by rw [hp]; exact List.cons_ne_nil _ _), hp]
    exact ⟨fun _ => .inl (List.cons_ne_nil _ _), fun _ => ⟨_, rfl, rfl⟩⟩
  | nil =>
    rw [orDefault_of_eq_nil hp, orDefault_of_eq_nil hp]
    cases hf : orDefault [] (filed i l.profile .glm53RuntimeImage) with
    | nil => simp
    | cons c t =>
      have hne : orDefault [] (filed i l.profile .glm53RuntimeImage) ≠ [] := by
        rw [hf]
        exact List.cons_ne_nil _ _
      have hshell := loadConfig_aliased hl
        (a := (.glm53RuntimeImage, .glm53VllmImage, [])) (by decide)
      rw [told_of_filed hne, orDefault_of_ne_nil hne, hf] at hshell
      rw [hshell]
      exact ⟨fun _ => .inr (List.cons_ne_nil _ _), fun _ => ⟨_, rfl, rfl⟩⟩

/-! ### The containers -/

/-- The setting of a variable with an old name. -/
theorem setting_aliased_iff {i : Inputs} {l : Loaded} (hl : loadConfig i = some l)
    {a : Var × Var × Text} (ha : a ∈ aliases) (hv : a.1 ∈ aliasedVars) {s : Setting}
    (hs : s ∈ settings) (hx : s.var = a.1) :
    s.value (headLookup i l) = s.value (workerLookup i l) ↔
      (orDefault [] (filed i l.profile a.1) = [] →
        orDefault (orDefault a.2.2 (told i l.profile a.2.1)) (told i l.profile a.1) = a.2.2) := by
  have haliases : ∀ a ∈ aliases, a.1 ∈ aliasedVars → a.1 ≠ .nodeRank ∧ a.1 ≠ .headless ∧
      a.1 ∉ (forwarded fun _ => none).map (·.1) ∧
      ∀ s ∈ settings, s.var = a.1 → s.default = a.2.2 := by
    decide
  obtain ⟨hrank, hheadless, hforward, hdefault⟩ := haliases a ha hv
  rw [Setting.value, Setting.value, hdefault s hs hx, hx, headLookup_apply hl hrank hheadless,
    workerLookup_plain hforward]
  exact aliased_iff hl ha

/-- The setting of `MASTER_ADDR`. -/
theorem setting_masterAddr_iff {i : Inputs} {l : Loaded} (hl : loadConfig i = some l)
    (hreq : requiredOk l.shell = true) {s : Setting} (hs : s ∈ settings)
    (hx : s.var = .masterAddr) :
    s.value (headLookup i l) = s.value (workerLookup i l) ↔
      orDefault [] (filed i l.profile .masterAddr) ≠ [] := by
  have hdefault : ∀ s ∈ settings, s.var = .masterAddr → s.default = [] := by decide
  rw [Setting.value, Setting.value, hdefault s hs hx, hx,
    headLookup_apply hl (by decide) (by decide),
    workerLookup_plain (by decide)]
  exact masterAddr_iff hl hreq

/-- After the required variables are checked, the containers agree exactly when the files fix what
the head would fill in from somewhere else. -/
theorem ranks_agree_iff {i : Inputs} {l : Loaded} (hl : loadConfig i = some l)
    (hreq : requiredOk l.shell = true) : RanksAgree i l ↔ FilesFix i l.profile := by
  have hsetting : ∀ a ∈ aliases, a.1 ∈ aliasedVars →
      a.1 ∉ perNode ∧ ∃ s ∈ settings, s.var = a.1 := by
    decide
  have hmaster : ∃ s ∈ settings, s.var = .masterAddr := by decide
  have halias : ∀ x ∈ aliasedVars, ∃ a ∈ aliases, a.1 = x := by decide
  constructor
  · intro h
    refine ⟨(image_iff hl hreq).mp h.image, ?_, fun a ha hv => ?_, fun s hs hx => ?_⟩
    · obtain ⟨s, hs, hx⟩ := hmaster
      exact (setting_masterAddr_iff hl hreq hs hx).mp (h.settings s hs (by rw [hx]; decide))
    · obtain ⟨hnot, s, hs, hx⟩ := hsetting a ha hv
      exact (setting_aliased_iff hl ha hv hs hx).mp (h.settings s hs (by rwa [hx]))
    · refine (plain_iff hl hs hx).mp (h.settings s hs fun hp => hx ?_)
      simp only [List.mem_append]
      exact .inl (.inl (.inl hp))
  · intro h
    refine ⟨(image_iff hl hreq).mpr h.image, rfl, fun s hs hnot => ?_⟩
    by_cases hf : s.var ∈ forwardedVars
    · exact forwarded_agree hl hf
    by_cases ha : s.var ∈ aliasedVars
    · obtain ⟨a, hmem, hx⟩ := halias _ ha
      exact (setting_aliased_iff hl hmem (hx ▸ ha) hs hx.symm).mpr (h.aliased a hmem (hx ▸ ha))
    by_cases hm : s.var = .masterAddr
    · exact (setting_masterAddr_iff hl hreq hs hm).mpr h.masterAddr
    · have hx : s.var ∉ perNode ++ forwardedVars ++ aliasedVars ++ [.masterAddr] := by
        simp only [List.mem_append, List.mem_singleton, not_or]
        exact ⟨⟨⟨hnot, hf⟩, ha⟩, hm⟩
      exact (plain_iff hl hs hx).mpr (h.ambient s hs hx)

/-! ### A file without `MASTER_ADDR` -/

/-- The example file without the address of the master, which the head then takes from
`HEAD_FABRIC_IP`. -/
def noMaster : Inputs := exampleInputs (exampleEnv.filter (·.1 ≠ .masterAddr)) "5".toList

theorem noMaster_loads : (loadConfig noMaster).isSome = true := by decide +kernel

/-- Its loaded configuration. -/
def noMasterLoaded : Loaded := (loadConfig noMaster).get noMaster_loads

theorem noMaster_required : requiredOk noMasterLoaded.shell = true := by decide +kernel

/-- The configuration is valid, and the worker gets no address of the master. -/
theorem noMaster_not_agree :
    loadConfig noMaster = some noMasterLoaded ∧ requiredOk noMasterLoaded.shell = true ∧
      (validate exampleExternal noMasterLoaded.shell).isSome = true ∧
      ¬RanksAgree noMaster noMasterLoaded := by
  refine ⟨(Option.some_get noMaster_loads).symm, noMaster_required, by decide +kernel, fun h => ?_⟩
  have haddr := h.settings ⟨"MASTER_ADDR", .masterAddr, []⟩
    (by simp [settings, environment]) (by decide)
  revert haddr
  decide +kernel

/-- The condition decides this configuration. -/
theorem ranks_agree_iff_noMaster :
    RanksAgree noMaster noMasterLoaded ↔ FilesFix noMaster noMasterLoaded.profile :=
  ranks_agree_iff (Option.some_get noMaster_loads).symm noMaster_required

end Glm53Serve.Sglang
