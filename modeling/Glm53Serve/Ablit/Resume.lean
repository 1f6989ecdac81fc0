import Glm53Serve.Ablit.Killed

/-!
# Resuming a fetch

A run of `main` with a working network, in a directory that killed runs have left.

## What is proved

* `fetchTensor_works`, `fetchTensor_honest` — what a network that works, and one that fails
  now and then, gives a run.
* `ResumeInv.ends` — the loop ends, and returns 0 with all tensors in place.
* `resume_iff` — a run resumes exactly if the manifest that is left is a JSON text.
-/

namespace Glm53Serve.Ablit

open Py Machine

variable {cfg : Config} {D : Donor}

/-! ### A run with a working network -/

/-- The server answers the requests for a range in full: it honours ranges, and the requests,
from the first on, deliver the range without failing. -/
def Serves (server : Server) (obj : Bytes) (start stop : ℕ) : Prop :=
  Honours server obj start stop ∧ Delivers server stop 0 start

theorem fetchBytes_of_serves {server : Server} {obj : Bytes} {start stop : ℕ} (hle : start ≤ stop)
    (h : Serves server obj start stop) :
    ∃ f, FetchBytes server start stop ⟨some (span obj start stop), f⟩ :=
  returns_of_delivers h.1 hle h.2 (fetchInit start) (inv_init hle) rfl rfl hle

/-- The network works: every request is answered, and with the donor's bytes. -/
structure Net.Works (D : Donor) (net : Net) : Prop where
  index : net.index 0 = some D.weightMap
  head : ∀ shard, net.head shard = some ((D.shard shard).take 8)
  range : ∀ shard start stop, start ≤ stop → stop < (D.shard shard).length →
    Serves (net.range shard start stop) (D.shard shard) start stop

/-- The donor has a tensor for the layer, and its shard is a well-formed file. -/
def Donor.Offers (cfg : Config) (D : Donor) (L : ℤ) : Prop :=
  ∃ shard hdr m, D.weightMap (layerKey L) = some shard ∧
    0 < littleEndian ((D.shard shard).take 8) ∧
    cfg.header (span (D.shard shard) 8 (8 + littleEndian ((D.shard shard).take 8) - 1)) = some hdr ∧
    hdr (layerKey L) = some m ∧ m.offsets.1 < m.offsets.2 ∧
    8 + littleEndian ((D.shard shard).take 8) + m.offsets.2 ≤ (D.shard shard).length

theorem fetchIndex_works {net : Net} (h : net.Works D) : fetchIndex net = some D.weightMap := by
  rw [fetchIndex, show List.range RETRIES = [0, 1, 2, 3] from rfl, List.findSome?_cons, h.index]

/-- A working network gives the donor's tensor, and nothing else. -/
theorem fetchTensor_works {net : Net} (h : net.Works D) {L : ℤ} (hL : D.Offers cfg L) :
    ∃ shard t, D.weightMap (layerKey L) = some shard ∧ D.HasTensor cfg shard (layerKey L) t ∧
      ∀ o, FetchTensor cfg net shard (layerKey L) o ↔ o = some t := by
  obtain ⟨shard, hdr, m, hshard, hn, hhdr, hm, hab, hend⟩ := hL
  refine ⟨shard, _, hshard, ⟨hdr, m, hhdr, hm, rfl⟩, fun o => ?_⟩
  obtain ⟨f, hf⟩ := fetchBytes_of_serves (by omega) (h.range shard 8
    (8 + littleEndian ((D.shard shard).take 8) - 1) (by omega) (by omega))
  obtain ⟨g, hg⟩ := fetchBytes_of_serves (by simp only [dataSpan]; omega) (h.range shard
    (dataSpan (D.shard shard) m).1 (dataSpan (D.shard shard) m).2 (by simp only [dataSpan]; omega)
    (by simp only [dataSpan]; omega))
  have hspan : ∀ sp, SafetensorsSpan cfg net shard (layerKey L) sp ↔
      sp = some ((dataSpan (D.shard shard) m).1, (dataSpan (D.shard shard) m).2, m) := by
    intro sp
    simp only [SafetensorsSpan, h.head]
    constructor
    · rintro ⟨r, hr, rfl⟩
      rw [hf.unique hr]
      simp only [Option.bind_some, hhdr, hm, Option.map_some, dataSpan]
    · rintro rfl
      exact ⟨_, hf, by simp only [Option.bind_some, hhdr, hm, Option.map_some, dataSpan]⟩
  constructor
  · rintro ⟨sp, hsp, ho⟩
    rw [(hspan sp).1 hsp] at ho
    obtain ⟨r, hr, rfl⟩ := ho
    rw [hg.unique hr]
    rfl
  · rintro rfl
    exact ⟨_, (hspan _).2 rfl, _, hg, rfl⟩

/-- The entry of a layer in the manifest on disk. -/
def Dir.entry (d : Dir) (L : ℤ) : Option Json :=
  ((d.manifest.bind Json.loads).bind fun m => m.get "layers".toList).bind fun ls =>
    ls.get (Json.intText L)

/-- The file of the layer has the donor's bytes, and the sha256 sum that the manifest has. -/
def Complete (cfg : Config) (D : Donor) (d : Dir) (L : ℤ) : Prop :=
  ∃ t, D.HasLayer cfg L t ∧ d.bin L = some t.data ∧
    (d.entry L).bind (fun e => e.get "sha256".toList) = some (.str (cfg.sha256 t.data))

/-- The session of a run with a working network. -/
structure Session.Works (cfg : Config) (D : Donor) (layers : List ℤ) (S : Session) : Prop where
  weightMap : S.weightMap = D.weightMap
  fetch : ∀ L ∈ layers, ∃ shard t, D.weightMap (layerKey L) = some shard ∧
    D.HasTensor cfg shard (layerKey L) t ∧ S.fetch shard (layerKey L) = some t

/-- On the way the layers are to do, or recorded. -/
structure ResumeInv (cfg : Config) (D : Donor) (layers : List ℤ) (s : MainState) : Prop where
  recorded : ∃ recorded, s.manifest = newManifest cfg recorded ∧ Recorded cfg D s.dir recorded ∧
    ∀ L ∈ layers, L ∈ s.todo ∨ (recorded.lookup (Json.intText L)).isSome = true
  todo : ∀ L ∈ s.todo, L ∈ layers
  written : ∀ t, s.phase = .written t → ∀ L todo, s.todo = L :: todo →
    D.HasLayer cfg L t ∧ s.dir.tmp L = some t.data
  replaced : ∀ t, s.phase = .replaced t → ∀ L todo, s.todo = L :: todo →
    D.HasLayer cfg L t ∧ s.dir.bin L = some t.data

/-- The turns that are left, at most. -/
def turnsLeft (s : MainState) : ℕ :=
  3 * s.todo.length + match s.phase with
    | .start => 2
    | .written _ => 1
    | .replaced _ => 0

/-- With a working network no turn raises. -/
theorem ResumeInv.turn_ok {S : Session} {layers : List ℤ} {s : MainState}
    (hS : S.Works cfg D layers)
    (h : ResumeInv cfg D layers s) (hne : s.todo ≠ []) :
    ∃ w next, turn cfg S layers s = (w, .inl next) := by
  obtain ⟨recorded, hman, hrec, -⟩ := h.recorded
  obtain ⟨dir, manifest, todo, phase⟩ := s
  simp only at hman hrec
  subst hman
  obtain ⟨L, todo, rfl⟩ := List.exists_cons_of_ne_nil hne
  cases phase with
  | written t => exact ⟨_, _, rfl⟩
  | replaced t =>
    simp only [turn, layersOf_newManifest]
    exact ⟨_, _, rfl⟩
  | start =>
    obtain ⟨shard, t, hshard, -, ht⟩ := hS.fetch L (h.todo L List.mem_cons_self)
    obtain ⟨b, hb⟩ : ∃ b, alreadyFetched cfg dir (newManifest cfg recorded) L = some b := by
      simp only [alreadyFetched, layersOf_newManifest]
      cases dir.bin L with
      | none => exact ⟨false, rfl⟩
      | some bytes =>
        cases he : recorded.lookup (Json.intText L) with
        | none => exact ⟨false, rfl⟩
        | some e =>
          obtain ⟨t', -, rfl, -⟩ := hrec.lookup he
          exact ⟨_, rfl⟩
    rw [← hS.weightMap] at hshard
    cases b <;> simp only [turn, hshard, hb, ht]
    · exact ⟨_, _, rfl⟩
    · exact ⟨_, _, rfl⟩

theorem isSome_lookup_setKey {fields : Fields} {k k' : Text} {v : Json}
    (h : k' = k ∨ (fields.lookup k').isSome = true) :
    ((Json.setKey fields k v).lookup k').isSome = true := by
  by_cases hk : k' = k
  · subst hk
    rw [Json.lookup_setKey_self]
    rfl
  · rw [Json.lookup_setKey_of_ne _ hk]
    exact h.resolve_left hk

/-- A layer that is skipped is recorded. -/
theorem isSome_of_alreadyFetched {d : Dir} {recorded : Fields} {L : ℤ}
    (h : alreadyFetched cfg d (newManifest cfg recorded) L = some true) :
    (recorded.lookup (Json.intText L)).isSome = true := by
  simp only [alreadyFetched, layersOf_newManifest] at h
  cases hb : d.bin L with
  | none => simp [hb] at h
  | some bytes =>
    cases he : recorded.lookup (Json.intText L) with
    | none => simp [hb, he] at h
    | some e => rfl

theorem ResumeInv.step {S : Session} {layers : List ℤ} {s s' : MainState}
    (hS : S.Works cfg D layers)
    (h : ResumeInv cfg D layers s) (hs : mainStep cfg S layers s = .inl s') :
    ResumeInv cfg D layers s' ∧ turnsLeft s' < turnsLeft s := by
  obtain ⟨recorded, hman, hrec, hcov⟩ := h.recorded
  rw [mainStep] at hs
  split at hs
  · rename_i w manifest todo phase hturn
    obtain rfl := Sum.inl.inj hs
    obtain ⟨L, htodo, hphase, hf, rfl, rfl, rfl⟩ |
      ⟨L, todo', shard, t, htodo, hphase, hshard, ht, rfl, rfl, rfl, rfl⟩ |
      ⟨L, todo', t, htodo, hphase, rfl, rfl, rfl, rfl⟩ |
      ⟨L, t, recorded', htodo, hphase, hlayers, rfl, rfl, rfl⟩ := turn_cases hturn
    · -- the layer is skipped
      rw [hman] at hf
      refine ⟨⟨⟨recorded, hman, hrec, fun L' hL' => ?_⟩,
        fun L' hL' => h.todo L' (htodo ▸ List.mem_cons_of_mem _ hL'), fun t ht => by simp at ht,
        fun t ht => by simp at ht⟩, ?_⟩
      · obtain hin | hin := hcov L' hL'
        · rw [htodo] at hin
          obtain rfl | hin := List.mem_cons.1 hin
          · exact .inr (isSome_of_alreadyFetched hf)
          · exact .inl hin
        · exact .inr hin
      · simp only [turnsLeft, htodo, hphase, List.length_cons]
        omega
    · -- the tensor is fetched and written to the `.tmp` file
      refine ⟨⟨⟨recorded, hman, hrec.congr rfl, hcov⟩, h.todo, fun t' ht' L' ls hls => ?_,
        fun t' ht' => by simp at ht'⟩, ?_⟩
      · obtain rfl := Phase.written.inj ht'
        rw [htodo] at hls
        obtain ⟨rfl, rfl⟩ := List.cons.inj hls
        obtain ⟨shard', t', hshard', hhas, ht'⟩ :=
          hS.fetch L (h.todo L (htodo ▸ List.mem_cons_self))
        rw [hS.weightMap, hshard'] at hshard
        obtain rfl := Option.some.inj hshard
        rw [ht] at ht'
        obtain rfl := Option.some.inj ht'
        refine ⟨⟨_, hshard', hhas⟩, ?_⟩
        simp only [Dir.applyAll, Option.elim, Dir.apply, Function.update_self]
      · simp only [turnsLeft, hphase]
        omega
    · -- the `.tmp` file replaces the `.bin` file
      obtain ⟨ht, htmp⟩ := h.written t hphase L todo' htodo
      refine ⟨⟨⟨recorded, hman, hrec.replace ht htmp, hcov⟩, h.todo, fun t' ht' => by simp at ht',
        fun t' ht' L' ls hls => ?_⟩, ?_⟩
      · obtain rfl := Phase.replaced.inj ht'
        rw [htodo] at hls
        obtain ⟨rfl, rfl⟩ := List.cons.inj hls
        refine ⟨ht, ?_⟩
        simp only [Dir.applyAll, Option.elim, Dir.apply, Function.update_self, htmp]
      · simp only [turnsLeft, hphase]
        omega
    · -- the layer is recorded
      obtain ⟨ht, hbin⟩ := h.replaced t hphase L todo htodo
      rw [hman, layersOf_newManifest] at hlayers
      obtain rfl := Option.some.inj hlayers
      refine ⟨⟨⟨_, by rw [hman, setKey_newManifest], (hrec.setKey ht hbin).congr rfl,
        fun L' hL' => ?_⟩, fun L' hL' => h.todo L' (htodo ▸ List.mem_cons_of_mem _ hL'),
        fun t ht => by simp at ht, fun t ht => by simp at ht⟩, ?_⟩
      · obtain hin | hin := hcov L' hL'
        · rw [htodo] at hin
          obtain rfl | hin := List.mem_cons.1 hin
          · exact .inr (isSome_lookup_setKey (.inl rfl))
          · exact .inl hin
        · exact .inr (isSome_lookup_setKey (.inr hin))
      · simp only [turnsLeft, htodo, hphase, List.length_cons]
        omega
  · cases hs

theorem Recorded.nbytesOf {d : Dir} {recorded : Fields} (h : Recorded cfg D d recorded) {L : ℤ}
    (hL : (recorded.lookup (Json.intText L)).isSome = true) :
    ∃ n, Ablit.nbytesOf recorded L = some n := by
  obtain ⟨e, he⟩ := Option.isSome_iff_exists.1 hL
  obtain ⟨t, -, rfl, -⟩ := h.lookup he
  exact ⟨t.nbytes, by simp [Ablit.nbytesOf, he, Json.get, entry, List.lookup_cons]⟩

/-- When all layers are recorded, the exit code is 0. -/
theorem exitCode_of_recorded {d : Dir} {recorded : Fields} (hrec : Recorded cfg D d recorded)
    {layers : List ℤ} (h : ∀ L ∈ layers, (recorded.lookup (Json.intText L)).isSome = true) :
    exitCode layers (newManifest cfg recorded) = some 0 := by
  have hfilter : layers.filter (fun L => (recorded.lookup (Json.intText L)).isSome) = layers :=
    List.filter_eq_self.2 h
  simp only [exitCode, layersOf_newManifest, Option.bind_eq_bind, Option.bind_some,
    hfilter, if_true]
  have hsum : ∀ ls : List ℤ, (∀ L ∈ ls, (recorded.lookup (Json.intText L)).isSome = true) →
      ∃ sizes, ls.mapM (nbytesOf recorded) = some sizes := by
    intro ls hls
    induction ls with
    | nil => exact ⟨[], rfl⟩
    | cons L ls ih =>
      obtain ⟨sizes, hsizes⟩ := ih fun L' hL' => hls L' (List.mem_cons_of_mem _ hL')
      obtain ⟨n, hn⟩ := hrec.nbytesOf (hls L List.mem_cons_self)
      exact ⟨n :: sizes, by rw [List.mapM_cons, hn, hsizes]; rfl⟩
  obtain ⟨sizes, hsizes⟩ := hsum layers h
  rw [hsizes]
  rfl

/-- A directory whose manifest has just been written is complete. -/
theorem complete_of_recorded {d : Dir} {recorded : Fields} (hrec : Recorded cfg D d recorded)
    (hman : d.manifest = some (Json.dumps (.obj (newManifest cfg recorded)))) {L : ℤ}
    (hL : (recorded.lookup (Json.intText L)).isSome = true) : Complete cfg D d L := by
  obtain ⟨e, he⟩ := Option.isSome_iff_exists.1 hL
  obtain ⟨t, ht, rfl, hbin⟩ := hrec.lookup he
  refine ⟨t, ht, hbin, ?_⟩
  have hentry : d.entry L = some (entry cfg t) := by
    rw [Dir.entry, hman, Option.bind_some, Json.loads_dumps hrec.distinct, Option.bind_some]
    have hlayers : Json.get (.obj (newManifest cfg recorded)) "layers".toList =
        some (.obj recorded) := by
      simp [Json.get, newManifest, List.lookup_cons]
    rw [hlayers, Option.bind_some]
    exact he
  rw [hentry, Option.bind_some]
  simp [Json.get, entry, List.lookup_cons]

/-- The loop ends, and returns 0 with all tensors in place. -/
theorem ResumeInv.ends {S : Session} {layers : List ℤ} {s : MainState} (hS : S.Works cfg D layers)
    (h : ResumeInv cfg D layers s) :
    ∃ r, Ends (mainStep cfg S layers) s r ∧ r.outcome = .returned 0 ∧
      ∀ L ∈ layers, Complete cfg D r.dir L := by
  obtain ⟨r, hr⟩ := exists_ends (ResumeInv cfg D layers) turnsLeft
    (fun s s' hinv hs => hinv.step hS hs) h
  refine ⟨r, hr, hr.of_inv (ResumeInv cfg D layers)
    (fun r => r.outcome = .returned 0 ∧ ∀ L ∈ layers, Complete cfg D r.dir L)
    (fun s s' hinv hs => (hinv.step hS hs).1) ?_ h⟩
  intro s r hinv hs
  by_cases hne : s.todo = []
  · obtain ⟨recorded, hman, hrec, hcov⟩ := hinv.recorded
    have hall : ∀ L ∈ layers, (recorded.lookup (Json.intText L)).isSome = true := fun L hL =>
      (hcov L hL).resolve_left (by rw [hne]; exact List.not_mem_nil)
    simp only [mainStep, turn, hne, hman, exitCode_of_recorded hrec hall] at hs
    obtain rfl := Sum.inr.inj hs
    have hwritten : Recorded cfg D
      (s.dir.apply (.manifest (Json.dumps (.obj (newManifest cfg recorded)))))
        recorded := hrec.congr rfl
    exact ⟨rfl, fun L hL => complete_of_recorded hwritten rfl (hall L hL)⟩
  · obtain ⟨w, next, hturn⟩ := hinv.turn_ok hS hne
    rw [mainStep, hturn] at hs
    cases hs

/-! ### What the network gives a run -/

/-- What the network answers is the donor's. -/
structure Net.Honest (D : Donor) (net : Net) : Prop where
  index : ∀ i weightMap, net.index i = some weightMap → weightMap = D.weightMap
  head : ∀ shard b, net.head shard = some b → b = (D.shard shard).take 8
  range : ∀ shard start stop, Honours (net.range shard start stop) (D.shard shard) start stop

/-- An empty range is never returned. -/
theorem fetchBytes_empty {server : Server} {start stop : ℕ} (h : stop < start) {r : Fetched}
    (hr : FetchBytes server start stop r) : r.result = none := by
  have hstep : ∀ s : FetchState, stop < s.pos → fetchStep server start stop s = retry start s :=
    fun s hs => by rw [fetchStep, if_neg (by omega)]
  refine hr.of_inv (fun s => stop < s.pos) (fun r => r.result = none) ?_ ?_ h
  · intro s s' hs hnext
    rw [hstep s hs] at hnext
    obtain ⟨-, rfl⟩ := retry_eq_inl hnext
    simp only
    omega
  · intro s r hs hend
    rw [hstep s hs] at hend
    exact retry_eq_inr hend

theorem fetchBytes_honest {server : Server} {obj : Bytes} {start stop : ℕ}
    (h : Honours server obj start stop) {r : Fetched}
    (hr : FetchBytes server start stop r) {b : Bytes}
    (hb : r.result = some b) : b = span obj start stop := by
  obtain hle | hlt := le_or_gt start stop
  · exact returned_eq_span h hle ⟨0, inv_init hle⟩ hr b hb
  · rw [fetchBytes_empty hlt hr] at hb
    cases hb

/-- A tensor that is fetched is the donor's, whatever requests fail. -/
theorem fetchTensor_honest {net : Net} (h : net.Honest D) {shard key : Text} {t : Tensor}
    (ht : FetchTensor cfg net shard key (some t)) : D.HasTensor cfg shard key t := by
  obtain ⟨sp, hsp, ht⟩ := ht
  rw [SafetensorsSpan] at hsp
  cases hhead : net.head shard with
  | none =>
    simp only [hhead] at hsp
    subst hsp
    cases ht
  | some b =>
    simp only [hhead] at hsp
    obtain ⟨r, hr, rfl⟩ := hsp
    obtain rfl := h.head shard b hhead
    cases hres : r.result with
    | none => simp [hres] at ht
    | some hdrBytes =>
      cases hhdr : cfg.header hdrBytes with
      | none => simp [hres, hhdr] at ht
      | some hdr =>
        cases hm : hdr key with
        | none => simp [hres, hhdr, hm] at ht
        | some m =>
          simp only [hres, Option.bind_some, hhdr, hm, Option.map_some] at ht
          obtain ⟨r', hr', ht⟩ := ht
          obtain ⟨data, hdata, rfl⟩ := Option.map_eq_some_iff.1 ht.symm
          refine ⟨hdr, m, ?_, hm, ?_⟩
          · rw [← fetchBytes_honest (h.range _ _ _) hr hres, hhdr]
          · rw [fetchBytes_honest (h.range _ _ _) hr' hdata]
            rfl

/-- A run on a network that answers with what the donor has is a session that delivers nothing
else. -/
theorem Net.Honest.session {net : Net} (h : net.Honest D) {weightMap : Text → Option Text}
    (hidx : fetchIndex net = some weightMap) {fetch : Text → Text → Option Tensor}
    (hfetch : ∀ shard key t, fetch shard key = some t → FetchTensor cfg net shard key (some t)) :
    Session.Honest cfg D ⟨weightMap, fetch⟩ := by
  refine ⟨?_, fun shard key t ht => fetchTensor_honest h (hfetch shard key t ht)⟩
  obtain ⟨i, -, hi⟩ := List.exists_of_findSome?_eq_some hidx
  exact h.index i weightMap hi

theorem session_works {net : Net} (h : net.Works D) {layers : List ℤ}
    (hoffers : ∀ L ∈ layers, D.Offers cfg L) {fetch : Text → Text → Option Tensor}
    (hfetch : ∀ L ∈ layers, ∀ shard, D.weightMap (layerKey L) = some shard →
      FetchTensor cfg net shard (layerKey L) (fetch shard (layerKey L))) :
    Session.Works cfg D layers ⟨D.weightMap, fetch⟩ := by
  refine ⟨rfl, fun L hL => ?_⟩
  obtain ⟨shard, t, hshard, ht, hiff⟩ := fetchTensor_works h (hoffers L hL)
  exact ⟨shard, t, hshard, ht, (hiff _).1 (hfetch L hL shard hshard)⟩

open Classical in
/-- A working network gives every requested tensor. -/
theorem exists_fetch {net : Net} (h : net.Works D) {layers : List ℤ}
    (hoffers : ∀ L ∈ layers, D.Offers cfg L) : ∃ fetch : Text → Text → Option Tensor,
      ∀ L ∈ layers, ∀ shard, D.weightMap (layerKey L) = some shard →
        FetchTensor cfg net shard (layerKey L) (fetch shard (layerKey L)) := by
  refine ⟨fun shard key => if ht : ∃ t, D.HasTensor cfg shard key t then some ht.choose else none,
    fun L hL shard hshard => ?_⟩
  obtain ⟨shard', t, hshard', ht, hiff⟩ := fetchTensor_works h (hoffers L hL)
  obtain rfl := Option.some.inj (hshard.symm.trans hshard')
  have hex : ∃ t, D.HasTensor cfg shard (layerKey L) t := ⟨t, ht⟩
  rw [hiff]
  simp only [dif_pos hex]
  rw [hasTensor_unique hex.choose_spec ht]

/-! ### Resuming -/

theorem resumeInv_init {d : Dir} (h : Good cfg D d) {old : Option Fields}
    (hold : loadManifest cfg d.manifest = some old) (layers : List ℤ) :
    ResumeInv cfg D layers (mainInit cfg layers d old) := by
  obtain ⟨recorded, hman, hrec⟩ := h.found hold
  exact ⟨⟨recorded, hman, hrec, fun L hL => .inl hL⟩, fun L hL => hL,
    fun _ ht => by simp [mainInit] at ht, fun _ ht => by simp [mainInit] at ht⟩

/-- The manifest that is left is read, if it is a JSON text. -/
theorem Good.loads {d : Dir} (h : Good cfg D d)
    (hjson : ∀ t, d.manifest = some t → Json.loads t ≠ none) :
    ∃ old, loadManifest cfg d.manifest = some old := by
  obtain h | ⟨recorded, t, hrec, ht, hpre⟩ := h
  · exact ⟨none, h⟩
  · by_cases hfull : t = Json.dumps (.obj (newManifest cfg recorded))
    · rw [ht, hfull]
      exact ⟨_, hrec.loadManifest⟩
    · exact absurd (Json.loads_take_dumps hrec.distinct hpre hfull) (hjson t ht)

/-- The run of `main` with this network ends, and however it ends it returns 0 and leaves all
requested tensors in place. -/
def Resumes (cfg : Config) (D : Donor) (net : Net) (spec : Text) (layers : List ℤ)
    (d : Dir) : Prop :=
  (∃ r, Main cfg net spec d r) ∧
    ∀ r, Main cfg net spec d r → r.outcome = .returned 0 ∧ ∀ L ∈ layers, Complete cfg D r.dir L

theorem resumes_of_complete {d : Dir} (h : Good cfg D d) {net : Net} (hnet : net.Works D)
    {spec : Text}
    {layers : List ℤ} (hspec : parseLayers spec = .ok layers)
    (hoffers : ∀ L ∈ layers, D.Offers cfg L)
    (hjson : ∀ t, d.manifest = some t → Json.loads t ≠ none) :
    Resumes cfg D net spec layers d := by
  obtain ⟨old, hold⟩ := h.loads hjson
  have hinit := resumeInv_init h hold layers
  constructor
  · obtain ⟨fetch, hfetch⟩ := exists_fetch hnet hoffers
    obtain ⟨r, hr, -⟩ := hinit.ends (session_works hnet hoffers hfetch)
    refine ⟨r, ?_⟩
    simp only [Main, hspec, fetchIndex_works hnet, hold]
    exact ⟨fetch, hfetch, hr⟩
  · intro r hr
    simp only [Main, hspec, fetchIndex_works hnet, hold] at hr
    obtain ⟨fetch, hfetch, hr⟩ := hr
    obtain ⟨r', hr', hok⟩ := hinit.ends (session_works hnet hoffers hfetch)
    rwa [hr'.unique hr]

/-- A manifest that is not a JSON text stops every run. -/
theorem not_resumes_of_torn {d : Dir} {t : Text} (ht : d.manifest = some t)
    (hjson : Json.loads t = none) {net : Net} (hnet : net.Works D) {spec : Text} {layers : List ℤ}
    (hspec : parseLayers spec = .ok layers) : ¬ Resumes cfg D net spec layers d := by
  intro h
  have hr : Main cfg net spec d ⟨d, .raised⟩ := by
    have hload : loadManifest cfg (some t) = none := by rw [loadManifest, hjson]
    simp only [Main, hspec, fetchIndex_works hnet, ht, hload]
  have hout := (h.2 _ hr).1
  cases hout

/-- **When a killed fetch is resumed**: from every directory that killed runs for one revision of
the donor leave, a run with a working network resumes exactly if the manifest, if there is one, is
a JSON text, which is to say that no run was killed while it wrote it. -/
theorem resume_iff {d : Dir} (hleft : LeftBehind cfg D d) {net : Net} (hnet : net.Works D)
    {spec : Text}
    {layers : List ℤ} (hspec : parseLayers spec = .ok layers)
    (hoffers : ∀ L ∈ layers, D.Offers cfg L) :
    Resumes cfg D net spec layers d ↔ ∀ t, d.manifest = some t → Json.loads t ≠ none :=
  ⟨fun h _ ht hjson => not_resumes_of_torn ht hjson hnet hspec h,
    resumes_of_complete hleft.good hnet hspec hoffers⟩

/-! ### A donor of one byte -/

/-- `json.loads` of a header, and what is read of it. -/
def headerOf (b : Bytes) : Option (Text → Option Meta) :=
  match Json.loads (decode b) with
  | some (.obj tensors) => some fun key =>
    match tensors.lookup key with
    | none => none
    | some m =>
      match m.get "dtype".toList, m.get "shape".toList, m.get "data_offsets".toList with
      | some (.str dtype), some (.arr shape), some (.arr [.int a, .int b]) =>
        some ⟨dtype, shape.filterMap fun | .int n => some n.toNat | _ => none, (a.toNat, b.toNat)⟩
      | _, _, _ => none
  | _ => none

/-- The header of the shard. -/
def oneHeader : Bytes :=
  ("\x7b\"model.language_model.layers.15.self_attn.o_proj.weight\":\x7b\"dtype\":\"U8\",".toList ++
    "\"shape\":[1],\"data_offsets\":[0,1]\x7d\x7d".toList).map fun c => UInt8.ofNat c.toNat

/-- A shard with one tensor, the byte 42. -/
def oneShard : Bytes := [106, 0, 0, 0, 0, 0, 0, 0] ++ oneHeader ++ [42]

def oneConfig : Config :=
  { donor := "d".toList, revision := "r".toList, header := headerOf,
    sha256 := fun _ => "684888c0ebb17f374298b65ee2807526c066094c701bcc7ebbe1c1095f494fc1".toList }

def oneDonor : Donor := ⟨fun _ => some "s".toList, fun _ => oneShard⟩

/-- A network that answers every range request byte by byte. -/
def oneNet : Net :=
  ⟨fun _ => some oneDonor.weightMap, fun _ => some (oneShard.take 8),
    fun _ _ _ => byteServer oneShard fun _ => .closed⟩

theorem byteServer_delivers {obj : Bytes} {stop : ℕ} (h : stop < obj.length) (n : ℕ) :
    ∀ i pos, pos + n = stop → Delivers (byteServer obj fun _ => .closed) stop i pos := by
  have hlen : ∀ pos ≤ stop, [(obj.drop pos).take 1].flatten.length = 1 := by
    intro pos hpos
    simp only [List.flatten_singleton, List.length_take, List.length_drop]
    omega
  induction n with
  | zero =>
    intro i pos hpos
    exact .last rfl (by rw [hlen pos (by omega)]; omega)
  | succ n ih =>
    intro i pos hpos
    refine .more rfl (by rw [hlen pos (by omega)]; omega) ?_
    rw [hlen pos (by omega)]
    exact ih (i + 1) (pos + 1) (by omega)

theorem oneNet_works : oneNet.Works oneDonor :=
  ⟨rfl, fun _ => rfl, fun _ start stop hle hlt =>
    ⟨byteServer_honours hlt _ (fun _ => by decide) start,
      byteServer_delivers hlt (stop - start) 0 start (by omega)⟩⟩

theorem headerOf_oneHeader : ((headerOf oneHeader).bind fun hdr => hdr (layerKey 15)).map
    (fun m => (m.dtype, m.shape, m.offsets)) = some ("U8".toList, [1], (0, 1)) := by decide +kernel

theorem oneDonor_header :
    span oneShard 8 (8 + littleEndian (oneShard.take 8) - 1) = oneHeader := by decide +kernel

theorem oneDonor_offers : oneDonor.Offers oneConfig 15 := by
  obtain ⟨m, hm, hval⟩ := Option.map_eq_some_iff.1 headerOf_oneHeader
  obtain ⟨hdr, hhdr, hm⟩ := Option.bind_eq_some_iff.1 hm
  simp only [Prod.mk.injEq] at hval
  refine ⟨"s".toList, hdr, m, rfl, by decide +kernel, ?_, hm, ?_, ?_⟩
  · simp only [oneDonor, oneConfig]
    rw [oneDonor_header, hhdr]
  · rw [hval.2.2]
    decide
  · rw [hval.2.2]
    decide +kernel

theorem oneLayers : parseLayers "15".toList = .ok [15] := by decide +kernel

/-- A directory without files. -/
def emptyDir : Dir := ⟨fun _ => none, fun _ => none, none⟩

/-- The directory in which the tensor has been put in place, and nothing recorded yet. -/
def placedDir (t : Tensor) : Dir := (emptyDir.apply (.tmp 15 t.data)).apply (.replace 15)

/-- A first run comes to put the tensor in place. -/
theorem exists_placed : ∃ (S : Session) (t : Tensor), S.Honest oneConfig oneDonor ∧
    oneDonor.HasLayer oneConfig 15 t ∧
    Reaches (mainStep oneConfig S [15]) (mainInit oneConfig [15] emptyDir none)
      ⟨placedDir t, newManifest oneConfig [], [15], .replaced t⟩ := by
  obtain ⟨shard, t, hshard, ht, -⟩ := fetchTensor_works oneNet_works oneDonor_offers
  obtain rfl : "s".toList = shard := Option.some.inj hshard
  let S : Session := ⟨oneDonor.weightMap, fun shard key =>
    if shard = "s".toList ∧ key = layerKey 15 then some t else none⟩
  have hS : S.Honest oneConfig oneDonor := by
    refine ⟨rfl, fun shard key t' h => ?_⟩
    simp only [S] at h
    split_ifs at h with hkey
    obtain ⟨rfl, rfl⟩ := hkey
    obtain rfl := Option.some.inj h
    exact ht
  have hfetch : S.fetch "s".toList (layerKey 15) = some t := by simp only [S, and_self, if_true]
  let s₁ : MainState :=
    ⟨emptyDir.apply (.tmp 15 t.data), newManifest oneConfig [], [15], .written t⟩
  have h₁ : mainStep oneConfig S [15] (mainInit oneConfig [15] emptyDir none) = .inl s₁ := by
    simp only [mainStep, turn, mainInit, show S.weightMap (layerKey 15) = some "s".toList from rfl,
      show alreadyFetched oneConfig emptyDir _ 15 = some false from rfl, hfetch]
    rfl
  exact ⟨S, t, hS, ⟨_, rfl, ht⟩, (Reaches.single h₁).tail rfl⟩

/-- The first run is killed when it has recorded its tensor: a later run resumes. -/
theorem resume_iff_recorded :
    ∃ d t, LeftBehind oneConfig oneDonor d ∧ d.manifest = some t ∧ Json.loads t ≠ none ∧
      (Resumes oneConfig oneDonor oneNet "15".toList [15] d ↔
        ∀ t, d.manifest = some t → Json.loads t ≠ none) := by
  obtain ⟨S, t, hS, ht, hreach⟩ := exists_placed
  let layers : Fields := [(Json.intText 15, entry oneConfig t)]
  let d : Dir := (placedDir t).apply (.manifest (Json.dumps (.obj (newManifest oneConfig layers))))
  have hrecord : mainStep oneConfig S [15]
      ⟨placedDir t, newManifest oneConfig [], [15], .replaced t⟩ =
        .inl ⟨d, newManifest oneConfig layers, [], .start⟩ := rfl
  have hleft : LeftBehind oneConfig oneDonor d :=
    .killed (.start rfl) hS rfl ⟨_, hreach.tail hrecord, .inl rfl⟩
  have hrecorded : Recorded oneConfig oneDonor (placedDir t) layers :=
    ((Recorded.nil _ _ (emptyDir.apply (.tmp 15 t.data))).replace ht rfl).setKey ht rfl
  refine ⟨d, _, hleft, rfl, ?_,
    resume_iff hleft oneNet_works oneLayers (by simpa using oneDonor_offers)⟩
  rw [Json.loads_dumps hrecorded.distinct]
  exact Option.some_ne_none _

/-- The first run is killed when it has opened `MANIFEST.json` for writing and written nothing:
every later run raises. -/
theorem resume_fails_after_kill :
    ∃ d, LeftBehind oneConfig oneDonor d ∧ d.manifest = some [] ∧
      oneNet.Works oneDonor ∧ parseLayers "15".toList = .ok [15] ∧ oneDonor.Offers oneConfig 15 ∧
      ¬ Resumes oneConfig oneDonor oneNet "15".toList [15] d := by
  obtain ⟨S, t, hS, -, hreach⟩ := exists_placed
  have hkill : KilledRun oneConfig S [15] emptyDir none ((placedDir t).apply (.manifest [])) :=
    ⟨_, hreach, .inr ⟨_, rfl, .manifest List.nil_prefix⟩⟩
  exact ⟨(placedDir t).apply (.manifest []), .killed (.start rfl) hS rfl hkill, rfl, oneNet_works,
    oneLayers, oneDonor_offers, not_resumes_of_torn rfl rfl oneNet_works oneLayers⟩

end Glm53Serve.Ablit
