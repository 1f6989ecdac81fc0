import Glm53Serve.Ablit.Transplant

/-!
# What a killed fetch leaves

A run of `main` can be killed between two turns, or while a file is being written, which
leaves a prefix of it; `tmp.replace(out)` is atomic.

## What is proved

* `Recorded.distinct`, `Recorded.loadManifest` — a manifest that records what is there is
  written and read back.
* `MainInv.write` — a run writes tensors of the donor, and manifests that record what is
  there.
* `LeftBehind.good` — so in every directory that killed runs leave the manifest is a prefix of
  one that records what is there.
-/

namespace Glm53Serve.Ablit

open Py Machine

/-! ### What is recorded -/

variable {cfg : Config} {D : Donor}

/-- The layers recorded in a manifest are the donor's, and their files are in place. -/
structure Recorded (cfg : Config) (D : Donor) (d : Dir) (layers : Fields) : Prop where
  nodup : (layers.map Prod.fst).Nodup
  entries : ∀ k e, (k, e) ∈ layers → ∃ L t, k = Json.intText L ∧ D.HasLayer cfg L t ∧
    e = entry cfg t ∧ d.bin L = some t.data

theorem Recorded.nil (cfg : Config) (D : Donor) (d : Dir) : Recorded cfg D d [] :=
  ⟨List.nodup_nil, fun _ _ h => absurd h List.not_mem_nil⟩

/-- Only the `.bin` files matter. -/
theorem Recorded.congr {d d' : Dir} {layers : Fields} (h : Recorded cfg D d layers)
    (hbin : d'.bin = d.bin) : Recorded cfg D d' layers :=
  ⟨h.nodup, fun k e hke => by rw [hbin]; exact h.entries k e hke⟩

/-- The donor's tensor replaces the file of its layer. -/
theorem Recorded.replace {d : Dir} {layers : Fields} (h : Recorded cfg D d layers) {L : ℤ}
    {t : Tensor}
    (ht : D.HasLayer cfg L t) (htmp : d.tmp L = some t.data) :
    Recorded cfg D (d.apply (.replace L)) layers := by
  refine ⟨h.nodup, fun k e hke => ?_⟩
  obtain ⟨L', t', rfl, ht', rfl, hbin⟩ := h.entries k e hke
  refine ⟨L', t', rfl, ht', rfl, ?_⟩
  by_cases hL : L' = L
  · subst hL
    rw [hasLayer_unique ht' ht]
    simp only [Dir.apply, Function.update_self, htmp]
  · simp only [Dir.apply, Function.update_of_ne hL, hbin]

/-- A layer whose file is in place is recorded. -/
theorem Recorded.setKey {d : Dir} {layers : Fields} (h : Recorded cfg D d layers) {L : ℤ}
    {t : Tensor}
    (ht : D.HasLayer cfg L t) (hbin : d.bin L = some t.data) :
    Recorded cfg D d (Json.setKey layers (Json.intText L) (entry cfg t)) := by
  refine ⟨Json.nodup_keys_setKey h.nodup _ _, fun k e hke => ?_⟩
  obtain ⟨rfl, rfl⟩ | hke := Json.mem_setKey hke
  · exact ⟨L, t, rfl, ht, rfl, hbin⟩
  · exact h.entries k e hke

/-- The entry of a recorded layer. -/
theorem Recorded.lookup {d : Dir} {layers : Fields} (h : Recorded cfg D d layers) {L : ℤ} {e : Json}
    (he : layers.lookup (Json.intText L) = some e) :
    ∃ t, D.HasLayer cfg L t ∧ e = entry cfg t ∧ d.bin L = some t.data := by
  obtain ⟨L', t, hL, ht, rfl, hbin⟩ := h.entries _ _ (Json.mem_of_lookup he)
  obtain rfl := Json.intText_injective hL
  exact ⟨t, ht, rfl, hbin⟩

theorem distinct_ints (shape : List ℕ) : Json.DistinctItems (shape.map fun n => .int n) := by
  induction shape with
  | nil => trivial
  | cons n shape ih => exact ⟨trivial, ih⟩

theorem distinct_entry (cfg : Config) (t : Tensor) : Json.Distinct (entry cfg t) :=
  ⟨by simp only [List.map_cons, List.map_nil]; decide,
    trivial, trivial, trivial, distinct_ints t.shape, trivial, trivial, trivial⟩

/-- A recorded manifest is written and read back. -/
theorem Recorded.distinct {d : Dir} {layers : Fields} (h : Recorded cfg D d layers) :
    Json.Distinct (.obj (newManifest cfg layers)) := by
  have hfields : ∀ fs : Fields, (∀ k e, (k, e) ∈ fs → ∃ t, e = entry cfg t) →
      Json.DistinctFields fs := by
    intro fs hfs
    induction fs with
    | nil => trivial
    | cons f fs ih =>
      obtain ⟨t, ht⟩ := hfs f.1 f.2 List.mem_cons_self
      refine ⟨?_, ih fun k e hke => hfs k e (List.mem_cons_of_mem _ hke)⟩
      rw [ht]
      exact distinct_entry cfg t
  have hkeys : ((newManifest cfg layers).map (·.1)).Nodup := by
    simp only [newManifest, List.map_cons, List.map_nil]
    decide
  refine ⟨hkeys, trivial, trivial, trivial, ⟨h.nodup, hfields layers fun k e hke => ?_⟩, trivial⟩
  obtain ⟨L, t, -, -, he, -⟩ := h.entries k e hke
  exact ⟨t, he⟩

/-- The text of a recorded manifest is that manifest. -/
theorem Recorded.loadManifest {d : Dir} {layers : Fields} (h : Recorded cfg D d layers) :
    loadManifest cfg (some (Json.dumps (.obj (newManifest cfg layers)))) =
      some (some (newManifest cfg layers)) := by
  have hdonor : holds (newManifest cfg layers) "donor".toList cfg.donor = true := by
    simp [holds, newManifest]
  have hrev : holds (newManifest cfg layers) "donor_revision".toList cfg.revision = true := by
    simp [holds, newManifest, List.lookup_cons]
  rw [Ablit.loadManifest, Json.loads_dumps h.distinct]
  simp only [hdonor, hrev, Bool.and_self, if_true]

@[simp] theorem layersOf_newManifest (cfg : Config) (layers : Fields) :
    layersOf (newManifest cfg layers) = some layers := by
  simp [layersOf, newManifest, List.lookup_cons]

theorem setKey_newManifest (cfg : Config) (layers layers' : Fields) :
    Json.setKey (newManifest cfg layers) "layers".toList (.obj layers') =
      newManifest cfg layers' := by
  simp [newManifest, Json.setKey]

/-! ### Runs that are killed -/

/-- The network of a run delivers nothing but the donor's index and tensors. -/
structure Session.Honest (cfg : Config) (D : Donor) (S : Session) : Prop where
  weightMap : S.weightMap = D.weightMap
  fetch : ∀ shard key t, S.fetch shard key = some t → D.HasTensor cfg shard key t

/-- A directory that a killed run leaves: a run goes to a state, and is killed there or in the
middle of its next write. -/
def KilledRun (cfg : Config) (S : Session) (layers : List ℤ) (d : Dir) (old : Option Fields)
    (d' : Dir) : Prop :=
  ∃ s, Reaches (mainStep cfg S layers) (mainInit cfg layers d old) s ∧
    (d' = s.dir ∨ ∃ w, (turn cfg S layers s).1 = some w ∧ s.dir.Cut w d')

/-- The directories that runs for one revision of the donor leave, the first of which found no
manifest or one of another revision: each run was killed, or ended. -/
inductive LeftBehind (cfg : Config) (D : Donor) : Dir → Prop where
  | start {d : Dir} (h : loadManifest cfg d.manifest = some none) : LeftBehind cfg D d
  | killed {S : Session} {layers : List ℤ} {d d' : Dir} {old : Option Fields}
      (hd : LeftBehind cfg D d)
      (hS : S.Honest cfg D) (hold : loadManifest cfg d.manifest = some old)
      (hk : KilledRun cfg S layers d old d') : LeftBehind cfg D d'
  | ended {S : Session} {layers : List ℤ} {d : Dir} {old : Option Fields} {r : Ended}
      (hd : LeftBehind cfg D d) (hS : S.Honest cfg D)
      (hold : loadManifest cfg d.manifest = some old)
      (hr : Ends (mainStep cfg S layers) (mainInit cfg layers d old) r) : LeftBehind cfg D r.dir

/-- The manifest on disk is of another revision, or a prefix of one that records what is there. -/
def Good (cfg : Config) (D : Donor) (d : Dir) : Prop :=
  loadManifest cfg d.manifest = some none ∨
    ∃ layers t, Recorded cfg D d layers ∧ d.manifest = some t ∧
      t <+: Json.dumps (.obj (newManifest cfg layers))

/-- The manifest in memory records what is there, and the tensor at hand is the donor's. -/
structure MainInv (cfg : Config) (D : Donor) (s : MainState) : Prop where
  good : Good cfg D s.dir
  recorded : ∃ layers, s.manifest = newManifest cfg layers ∧ Recorded cfg D s.dir layers
  written : ∀ t, s.phase = .written t → ∀ L todo, s.todo = L :: todo →
    D.HasLayer cfg L t ∧ s.dir.tmp L = some t.data
  replaced : ∀ t, s.phase = .replaced t → ∀ L todo, s.todo = L :: todo →
    D.HasLayer cfg L t ∧ s.dir.bin L = some t.data

theorem Good.of_bin {d d' : Dir} (h : Good cfg D d) (hbin : d'.bin = d.bin)
    (hman : d'.manifest = d.manifest) : Good cfg D d' := by
  obtain h | ⟨layers, t, hrec, ht, hpre⟩ := h
  · exact .inl (by rw [hman, h])
  · exact .inr ⟨layers, t, hrec.congr hbin, by rw [hman, ht], hpre⟩

/-- The manifest that a prefix of is written records what is there. -/
theorem Recorded.good {d : Dir} {layers : Fields} (h : Recorded cfg D d layers) {t : Text}
    (ht : t <+: Json.dumps (.obj (newManifest cfg layers))) :
    Good cfg D (d.apply (.manifest t)) :=
  .inr ⟨layers, t, h.congr rfl, rfl, ht⟩

/-- The writes of a turn. -/
theorem MainInv.write {S : Session} {layers : List ℤ} {s : MainState} (h : MainInv cfg D s)
    {w : Write} (hw : (turn cfg S layers s).1 = some w) :
    (∃ L t, w = .tmp L t) ∨
      (∃ L t, w = .replace L ∧ D.HasLayer cfg L t ∧ s.dir.tmp L = some t.data) ∨
      ∃ recorded, w = .manifest (Json.dumps (.obj (newManifest cfg recorded))) ∧
        Recorded cfg D s.dir recorded := by
  obtain ⟨recorded, hman, hrec⟩ := h.recorded
  obtain ⟨dir, manifest, todo, phase⟩ := s
  simp only at hman hrec
  subst hman
  cases todo with
  | nil =>
    simp only [turn, Option.some.injEq] at hw
    exact .inr (.inr ⟨recorded, hw.symm, hrec⟩)
  | cons L todo =>
    cases phase with
    | start =>
      simp only [turn] at hw
      repeat' split at hw
      all_goals first
        | exact .inl ⟨_, _, (Option.some.inj hw).symm⟩
        | cases hw
    | written t =>
      obtain ⟨ht, htmp⟩ := h.written t rfl L todo rfl
      exact .inr (.inl ⟨L, t, (Option.some.inj hw).symm, ht, htmp⟩)
    | replaced t =>
      obtain ⟨ht, hbin⟩ := h.replaced t rfl L todo rfl
      simp only [turn, layersOf_newManifest, setKey_newManifest, Option.some.injEq] at hw
      exact .inr (.inr ⟨_, hw.symm, hrec.setKey ht hbin⟩)

/-- A directory after a write, or after a part of it, is good. -/
theorem MainInv.good_cut {S : Session} {layers : List ℤ} {s : MainState} (h : MainInv cfg D s)
    {w : Write} (hw : (turn cfg S layers s).1 = some w) {d' : Dir} (hcut : s.dir.Cut w d') :
    Good cfg D d' := by
  obtain ⟨L, t, rfl⟩ | ⟨L, t, rfl, -⟩ | ⟨recorded, rfl, hrec⟩ := h.write hw
  · cases hcut with
    | tmp hb => exact h.good.of_bin rfl rfl
  · cases hcut
  · cases hcut with
    | manifest hu => exact hrec.good hu

theorem MainInv.good_apply {s : MainState} (h : MainInv cfg D s) (S : Session) (layers : List ℤ) :
    Good cfg D (s.dir.applyAll (turn cfg S layers s).1) := by
  cases hw : (turn cfg S layers s).1 with
  | none => exact h.good
  | some w =>
    obtain ⟨L, t, rfl⟩ | ⟨L, t, rfl, ht, htmp⟩ | ⟨recorded, rfl, hrec⟩ := h.write hw
    · exact h.good.of_bin rfl rfl
    · obtain hg | ⟨recorded, u, hrec, hu, hpre⟩ := h.good
      · exact .inl hg
      · exact .inr ⟨recorded, u, hrec.replace ht htmp, hu, hpre⟩
    · exact hrec.good (List.prefix_refl _)

theorem MainInv.step {S : Session} {layers : List ℤ} {s s' : MainState} (hS : S.Honest cfg D)
    (h : MainInv cfg D s) (hs : mainStep cfg S layers s = .inl s') : MainInv cfg D s' := by
  have hgood := h.good_apply S layers
  obtain ⟨recorded, hman, hrec⟩ := h.recorded
  rw [mainStep] at hs
  split at hs
  · rename_i w manifest todo phase hturn
    obtain rfl := Sum.inl.inj hs
    rw [hturn] at hgood
    obtain ⟨L, htodo, hphase, hf, rfl, rfl, rfl⟩ |
      ⟨L, todo', shard, t, htodo, hphase, hshard, ht, rfl, rfl, rfl, rfl⟩ |
      ⟨L, todo', t, htodo, hphase, rfl, rfl, rfl, rfl⟩ |
      ⟨L, t, recorded', htodo, hphase, hlayers, rfl, rfl, rfl⟩ := turn_cases hturn
    · exact ⟨hgood, ⟨recorded, hman, hrec⟩, fun t ht => by simp at ht, fun t ht => by simp at ht⟩
    · refine ⟨hgood, ⟨recorded, hman, hrec.congr rfl⟩, fun t' ht' L' ls hls => ?_,
        fun t' ht' => by simp at ht'⟩
      obtain rfl := Phase.written.inj ht'
      rw [htodo] at hls
      obtain ⟨rfl, rfl⟩ := List.cons.inj hls
      refine ⟨⟨shard, by rw [← hS.weightMap, hshard], hS.fetch _ _ _ ht⟩, ?_⟩
      simp only [Dir.applyAll, Option.elim, Dir.apply, Function.update_self]
    · obtain ⟨ht, htmp⟩ := h.written t hphase L todo' htodo
      refine ⟨hgood, ⟨recorded, hman, hrec.replace ht htmp⟩, fun t' ht' => by simp at ht',
        fun t' ht' L' ls hls => ?_⟩
      obtain rfl := Phase.replaced.inj ht'
      rw [htodo] at hls
      obtain ⟨rfl, rfl⟩ := List.cons.inj hls
      refine ⟨ht, ?_⟩
      simp only [Dir.applyAll, Option.elim, Dir.apply, Function.update_self, htmp]
    · obtain ⟨ht, hbin⟩ := h.replaced t hphase L todo htodo
      rw [hman, layersOf_newManifest] at hlayers
      obtain rfl := Option.some.inj hlayers
      refine ⟨hgood, ⟨_, ?_, (hrec.setKey ht hbin).congr rfl⟩, fun t ht => by simp at ht,
        fun t ht => by simp at ht⟩
      rw [hman, setKey_newManifest]
  · cases hs

/-- What a manifest that is found records. -/
theorem Good.found {d : Dir} (h : Good cfg D d) {old : Option Fields}
    (hold : loadManifest cfg d.manifest = some old) :
    ∃ recorded, old.getD (newManifest cfg []) = newManifest cfg recorded ∧
      Recorded cfg D d recorded := by
  obtain h | ⟨recorded, t, hrec, ht, hpre⟩ := h
  · obtain rfl := Option.some.inj (h.symm.trans hold)
    exact ⟨[], rfl, Recorded.nil cfg D d⟩
  · by_cases hfull : t = Json.dumps (.obj (newManifest cfg recorded))
    · rw [ht, hfull, hrec.loadManifest] at hold
      obtain rfl := Option.some.inj hold
      exact ⟨recorded, rfl, hrec⟩
    · rw [ht, loadManifest, Json.loads_take_dumps hrec.distinct hpre hfull] at hold
      cases hold

theorem mainInv_init {d : Dir} (h : Good cfg D d) {old : Option Fields}
    (hold : loadManifest cfg d.manifest = some old) (layers : List ℤ) :
    MainInv cfg D (mainInit cfg layers d old) :=
  ⟨h, h.found hold, fun _ ht => by simp [mainInit] at ht, fun _ ht => by simp [mainInit] at ht⟩

/-- **What killed runs leave**: whatever the runs, the manifest on disk is a prefix of one that
records what is there. -/
theorem LeftBehind.good {d : Dir} (h : LeftBehind cfg D d) : Good cfg D d := by
  induction h with
  | start h => exact .inl h
  | killed hd hS hold hk ih =>
    obtain ⟨s, hreach, hdir⟩ := hk
    have hinv := hreach.of_inv (MainInv cfg D) (fun s s' => MainInv.step hS)
      (mainInv_init ih hold _)
    obtain rfl | ⟨w, hw, hcut⟩ := hdir
    · exact hinv.good
    · exact hinv.good_cut hw hcut
  | @ended S layers d old r hd hS hold hr ih =>
    refine hr.of_inv (MainInv cfg D) (fun r => Good cfg D r.dir) (fun s s' => MainInv.step hS) ?_
      (mainInv_init ih hold _)
    intro s r hinv hs
    have hgood := hinv.good_apply S layers
    rw [mainStep] at hs
    split at hs
    · cases hs
    · rename_i w o hturn
      obtain rfl := Sum.inr.inj hs
      rw [hturn] at hgood
      exact hgood

end Glm53Serve.Ablit
