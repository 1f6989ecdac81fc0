import Glm53Serve.Overlay.Composition

/-!
# The order of two overlays

The hybrid prefix hit and the per-group retention give the same file in both orders. Their edits do
not meddle with each other, but for the helpers: these go before one statement, and a line that ran
into it would end in a line break then, like the texts that are looked for.

## What is proved

* `occ_insertion` — a helper that goes before the statement leaves the texts that are looked for.
* `hybrid_perGroup_comm` — both orders succeed, with the same file.
* `overlays_compose` — when the overlays compose.
-/

namespace Glm53Serve.Overlay.Composition

open Py Occurrences

/-! ### The edits -/

/-- The statement that the helpers go before. -/
def place : Text := joinLines HybridPrefixHit.needle

/-- The texts of the import and the blocks of the per-group retention. -/
def perGroupTexts : List (List String) :=
  PerGroupRetention.importOld :: PerGroupRetention.importNew :: blockTexts

/-- The first of each two texts. -/
def olds : List Text → List Text
  | old :: _ :: ts => old :: olds ts
  | _ => []

def hybridSites : List (Edit Char) := betweens (hybridTexts.map joinLines)

def perGroupSites : List (Edit Char) := betweens (perGroupTexts.map joinLines)

def fineSites : List (Edit Char) := betweens (fineTexts.map joinLines)

theorem hybridSites_eq : hybridSites =
    [HybridPrefixHit.eagleEdit, HybridPrefixHit.minEdit, HybridPrefixHit.logEdit] := rfl

theorem perGroupSites_eq :
    perGroupSites = PerGroupRetention.importEdit :: PerGroupRetention.blockEdits := rfl

theorem fineSites_eq : fineSites = [FineGrainedApc.vetoEdit, FineGrainedApc.diagEdit] := rfl

theorem map_old_betweens (ts : List Text) : (betweens ts).map Edit.old = olds ts := by
  induction ts using olds.induct with
  | case1 old new ts ih => rw [betweens, olds, List.map_cons, ih, old_between]
  | case2 ts h =>
    rw [betweens, olds]
    · rfl
    · exact h
    · exact h

/-- The edits leave the texts. -/
def leaveAll (es : List (Edit Char)) (xs : List Text) : Bool := es.all fun e => xs.all (e.adds · 0)

/-- Each replacement leaves the texts that are looked for behind it. -/
def leaveInTurn : List Text → Bool
  | old :: new :: ts => (olds ts).all ((Edit.between old new).adds · 0) && leaveInTurn ts
  | _ => true

/-- The texts never overlap the others. -/
def allApart (xs ys : List Text) : Bool := ys.all fun y => xs.all fun x => Edit.apart y x

def sitesSound : List Text → Bool
  | place :: importOs :: texts =>
    let hybrid := texts.take 6
    let perGroup := (texts.drop 6).take 10
    let fine := texts.drop 16
    leaveAll (betweens hybrid) (place :: importOs :: olds perGroup) && leaveInTurn hybrid &&
      leaveAll (betweens perGroup) (place :: olds hybrid) && leaveInTurn perGroup &&
      leaveAll (betweens fine) (place :: olds hybrid) && leaveInTurn fine &&
      (betweens hybrid ++ betweens perGroup).all (Edit.keeps ('\n' :: place)) &&
      allApart (place :: olds hybrid) (olds perGroup) && allApart (olds hybrid) [place]
  | _ => false

def siteTexts : List (List String) :=
  HybridPrefixHit.needle :: PerGroupRetention.importOs ::
    (hybridTexts ++ (perGroupTexts ++ fineTexts))

set_option maxRecDepth 40000 in
theorem sitesSound_texts : sitesSound (siteTexts.map joinLines) = true := by
  apply check_of_spelled sitesSound
  · unfold siteTexts hybridTexts perGroupTexts blockTexts fineTexts HybridPrefixHit.needle
      HybridPrefixHit.eagleOld HybridPrefixHit.eagleNew HybridPrefixHit.minOld
        HybridPrefixHit.minNew
      HybridPrefixHit.logOld HybridPrefixHit.logNew PerGroupRetention.importOs
      PerGroupRetention.importOld PerGroupRetention.importNew PerGroupRetention.initOld
      PerGroupRetention.initNew PerGroupRetention.baseCacheOld PerGroupRetention.baseCacheNew
      PerGroupRetention.hybridLoopOld PerGroupRetention.hybridLoopNew
      PerGroupRetention.hybridCacheOld PerGroupRetention.hybridCacheNew FineGrainedApc.vetoOld
      FineGrainedApc.vetoNew FineGrainedApc.diagOld FineGrainedApc.diagNew
    simp only [List.cons_append, List.nil_append]
    repeat (first
      | exact SpelledAll.nil | apply SpelledAll.cons | exact Spelled.nil | apply Spelled.cons)
  · decide +kernel

def insertsSound : List Text → Bool
  | place :: helper :: fineHelper :: retentionHelper :: importOs :: anchors =>
    let xs := importOs :: anchors
    xs.all (fun x => clearLeft [] place x.tail && x.dropLast != [] &&
      x.dropLast.getLast? != some '\n') &&
      [helper, fineHelper, retentionHelper].all (fun ins => ins.head? == some '\n' &&
        ins.getLast? == some '\n' && xs.all fun x =>
          clearLeft ['\n'] ins x.tail && occurs x ins == 0) &&
      anchors.all borderless
  | _ => false

set_option maxRecDepth 40000 in
theorem insertsSound_texts :
    insertsSound ((HybridPrefixHit.needle :: HybridPrefixHit.helper :: FineGrainedApc.helper ::
      PerGroupRetention.retentionHelper :: PerGroupRetention.importOs :: anchors).map joinLines) =
        true := by
  apply check_of_spelled insertsSound
  · unfold anchors HybridPrefixHit.needle HybridPrefixHit.helper HybridPrefixHit.helperCode
      HybridPrefixHit.innerKvSpec HybridPrefixHit.isDraftSwaSpec HybridPrefixHit.eagleOld
      HybridPrefixHit.minOld HybridPrefixHit.logOld FineGrainedApc.helper
        HybridPrefixHit.innerKvSpec
      FineGrainedApc.vetoOld FineGrainedApc.diagOld PerGroupRetention.importOs
      PerGroupRetention.retentionHelper PerGroupRetention.swaRetentionEnv
      PerGroupRetention.minExemptGroupIds PerGroupRetention.retentionForGroup
      PerGroupRetention.resolveRetentionByGroup PerGroupRetention.validateRetentionIntervals
      PerGroupRetention.formatRetentionVector PerGroupRetention.importOld PerGroupRetention.initOld
      PerGroupRetention.baseCacheOld PerGroupRetention.hybridLoopOld
        PerGroupRetention.hybridCacheOld
    simp only [List.cons_append, List.nil_append]
    repeat (first
      | exact SpelledAll.nil | apply SpelledAll.cons | exact Spelled.nil | apply Spelled.cons)
  · decide +kernel

theorem sites_sound :
    leaveAll hybridSites (place :: joinLines PerGroupRetention.importOs ::
        olds (perGroupTexts.map joinLines)) = true ∧
      leaveInTurn (hybridTexts.map joinLines) = true ∧
      leaveAll perGroupSites (place :: olds (hybridTexts.map joinLines)) = true ∧
      leaveInTurn (perGroupTexts.map joinLines) = true ∧
      leaveAll fineSites (place :: olds (hybridTexts.map joinLines)) = true ∧
      leaveInTurn (fineTexts.map joinLines) = true ∧
      (hybridSites ++ perGroupSites).all (Edit.keeps ('\n' :: place)) = true ∧
      allApart (place :: olds (hybridTexts.map joinLines))
        (olds (perGroupTexts.map joinLines)) = true ∧
      allApart (olds (hybridTexts.map joinLines)) [place] = true := by
  have h := sitesSound_texts
  have hhybrid : ((hybridTexts ++ (perGroupTexts ++ fineTexts)).map joinLines).take 6 =
      hybridTexts.map joinLines := rfl
  have hperGroup : (((hybridTexts ++ (perGroupTexts ++ fineTexts)).map joinLines).drop 6).take 10 =
      perGroupTexts.map joinLines := rfl
  have hfine : ((hybridTexts ++ (perGroupTexts ++ fineTexts)).map joinLines).drop 16 =
      fineTexts.map joinLines := rfl
  simp only [siteTexts, List.map_cons, sitesSound] at h
  rw [hhybrid, hperGroup, hfine] at h
  simp only [Bool.and_eq_true, and_assoc] at h
  exact h

/-- A helper, with a line break at both ends. -/
structure IsHelper (ins : Text) : Prop where
  head : ins.head? = some '\n'
  last : ins.getLast? = some '\n'
  left : ∀ a ∈ PerGroupRetention.importOs :: anchors,
    freeLeft ['\n'] ins (joinLines a).tail = true ∧ occ (joinLines a) ins = 0

/-- What is looked for. -/
structure IsLooked (x : Text) : Prop where
  free : freeLeft [] place x.tail = true
  long : x.dropLast ≠ []
  last : x.dropLast.getLast? ≠ some '\n'

theorem inserts_sound :
    (∀ a ∈ PerGroupRetention.importOs :: anchors, IsLooked (joinLines a)) ∧
      (IsHelper (joinLines HybridPrefixHit.helper) ∧ IsHelper (joinLines FineGrainedApc.helper) ∧
        IsHelper (joinLines PerGroupRetention.retentionHelper)) ∧
      ∀ a ∈ anchors, borderless (joinLines a) = true := by
  have h := insertsSound_texts
  simp only [List.map_cons, insertsSound, Bool.and_eq_true] at h
  obtain ⟨⟨hlooked, hhelpers⟩, honce⟩ := h
  rw [← List.map_cons] at hlooked hhelpers
  simp only [List.all_cons, List.all_nil, Bool.and_true, Bool.and_eq_true] at hhelpers
  have hhelper : ∀ ins : Text, ((ins.head? == some '\n') = true ∧
    (ins.getLast? == some '\n') = true) ∧
      ((PerGroupRetention.importOs :: anchors).map joinLines).all
        (fun x => clearLeft ['\n'] ins x.tail && occurs x ins == 0) = true → IsHelper ins := by
    rintro ins ⟨⟨hhead, hlast⟩, hall⟩
    refine ⟨beq_iff_eq.mp hhead, beq_iff_eq.mp hlast, fun a ha => ?_⟩
    have := List.all_eq_true.mp hall _ (List.mem_map_of_mem ha)
    rwa [Bool.and_eq_true, beq_iff_eq, clearLeft_eq, occurs_eq] at this
  refine ⟨fun a ha => ?_, ⟨hhelper _ hhelpers.1, hhelper _ hhelpers.2.1, hhelper _ hhelpers.2.2⟩,
    fun a ha => List.all_eq_true.mp honce _ (List.mem_map_of_mem ha)⟩
  have := List.all_eq_true.mp hlooked _ (List.mem_map_of_mem ha)
  simp only [Bool.and_eq_true, bne_iff_ne, clearLeft_eq] at this
  exact ⟨this.1.1, this.1.2, this.2⟩

/-! ### The place of the helpers -/

/-- A helper goes before the statement. -/
def insertion (ins : Text) : Edit Char := Edit.between place (ins ++ place)

/-- The statement stands once, on a line of its own. -/
structure Placed (t : Text) : Prop where
  once : occ place t = 1
  line : '\n' :: place <:+: t

/-- No line runs into the statement. -/
def Clear (x t : Text) : Prop := ∀ y, x = y ++ ['\n'] → ¬ y ++ place <:+: t

theorem looked_place : IsLooked place :=
  inserts_sound.1 _ (List.mem_cons_of_mem _ List.mem_cons_self)

theorem place_ne_nil : place ≠ [] := by
  intro h
  exact looked_place.long (by rw [h]; rfl)

theorem Placed.clear {x t : Text} (h : Placed t) (hx : IsLooked x) : Clear x t := by
  rintro y rfl ⟨u, v, huv⟩
  obtain ⟨u', v', huv'⟩ := h.line
  have hone := h.once
  rw [← List.append_assoc] at huv
  have hassoc : u' ++ '\n' :: place ++ v' = (u' ++ ['\n']) ++ place ++ v' := by simp
  rw [hassoc] at huv'
  rw [← huv] at hone
  -- both stand before the one place
  obtain ⟨heq, -⟩ := append_inj_of_once place_ne_nil hone (huv.trans huv'.symm)
  have hlong := hx.long
  have hlast := hx.last
  rw [List.dropLast_concat] at hlong hlast
  refine hlast ?_
  rw [← List.getLast?_append_of_ne_nil u hlong, heq, List.getLast?_concat]

theorem exists_insertion (ins : Text) {t : Text} (hone : occ place t = 1) :
    ∃ u v, t = u ++ (place ++ v) ∧ (insertion ins).apply t = u ++ (ins ++ (place ++ v)) := by
  obtain ⟨u, v, ht⟩ := (occ_pos_iff place_ne_nil).mp (by rw [hone]; exact Nat.one_pos)
  refine ⟨u, v, by rw [← ht, List.append_assoc], ?_⟩
  rw [insertion, apply_between, ← ht, replaceFirst_of_once place_ne_nil (by rwa [ht])]
  simp only [List.append_assoc]

/-- **A helper leaves what is looked for.** -/
theorem occ_insertion {ins t : Text} {a : List String} (hins : IsHelper ins)
    (ha : a ∈ PerGroupRetention.importOs :: anchors) (hone : occ place t = 1)
    (hclear : Clear (joinLines a) t) :
    occ (joinLines a) ((insertion ins).apply t) = occ (joinLines a) t := by
  obtain ⟨hfree, h0⟩ := hins.left a ha
  obtain ⟨u, v, rfl, happly⟩ := exists_insertion ins hone
  rw [happly]
  refine occ_insert (inserts_sound.1 a ha).free ?_ h0 v
  intro w e hw hne he hagree hsuf
  -- only the line break at the end agrees with the helper
  obtain ⟨c, w, rfl⟩ := List.exists_cons_of_ne_nil hne
  have hend : e <:+ (joinLines a).tail := ⟨w, by rw [hw]; rfl⟩
  have hlen := freeLeft_spec hfree hend hagree
  obtain ⟨d, e, rfl⟩ := List.exists_cons_of_ne_nil he
  obtain rfl : e = [] := List.length_eq_zero_iff.mp (by simpa using hlen)
  obtain ⟨i, ins, rfl⟩ : ∃ i is, ins = i :: is := by
    cases ins with
    | nil => cases hins.head
    | cons i is => exact ⟨i, is, rfl⟩
  obtain rfl : i = '\n' := Option.some.inj hins.head
  rw [agree, Bool.and_eq_true, beq_iff_eq] at hagree
  rw [hagree.1] at hw
  refine hclear (c :: w) hw ?_
  obtain ⟨r, hr⟩ := hsuf
  exact ⟨r, v, by rw [← hr]; simp only [List.append_assoc, List.cons_append]⟩

theorem placed_insertion {ins t : Text} (hins : IsHelper ins) (hone : occ place t = 1)
    (hclear : Clear place t) : Placed ((insertion ins).apply t) := by
  refine ⟨(occ_insertion hins (List.mem_cons_of_mem _ List.mem_cons_self) hone hclear).trans hone,
    ?_⟩
  obtain ⟨u, v, -, happly⟩ := exists_insertion ins hone
  obtain ⟨i, hi⟩ : ∃ i, ins = i ++ ['\n'] := by
    have hlast := hins.last
    rw [List.getLast?_eq_some_iff] at hlast
    exact hlast
  exact ⟨u ++ i, v, by rw [happly, hi]; simp⟩

theorem old_insertion (ins : Text) : (insertion ins).old = place := old_between _ _

theorem helperEdit_eq :
    HybridPrefixHit.helperEdit = insertion (joinLines HybridPrefixHit.helper) := by
  rw [HybridPrefixHit.helperEdit, insertion, place]

theorem retentionEdit_eq :
    PerGroupRetention.retentionEdit = insertion (joinLines PerGroupRetention.retentionHelper) := by
  rw [PerGroupRetention.retentionEdit, insertion, place]

theorem fineHelperEdit_eq :
    FineGrainedApc.helperEdit = insertion (joinLines FineGrainedApc.helper) := by
  rw [FineGrainedApc.helperEdit, insertion, place]

theorem stays_insertion {ins : Text} (hins : IsHelper ins) : Edit.Stays Placed (insertion ins) :=
  fun _ ht _ => placed_insertion hins ht.once (ht.clear looked_place)

theorem leaves_insertion {ins : Text} {a : List String} (hins : IsHelper ins)
    (ha : a ∈ PerGroupRetention.importOs :: anchors) :
    Edit.Leaves Placed (insertion ins) (joinLines a) :=
  fun _ ht _ => occ_insertion hins ha ht.once (ht.clear (inserts_sound.1 a ha))

/-! ### The replacements -/

theorem leaves_of_leaveAll {Ok : Text → Prop} {es : List (Edit Char)} {xs : List Text}
    (h : leaveAll es xs = true) : ∀ e ∈ es, ∀ x ∈ xs, Edit.Leaves Ok e x := by
  intro e he x hx
  exact Edit.Leaves.of_adds (List.all_eq_true.mp (List.all_eq_true.mp h e he) x hx)

theorem pairwise_of_leaveInTurn {Ok : Text → Prop} {ts : List Text} (h : leaveInTurn ts = true) :
    (betweens ts).Pairwise fun e g => Edit.Leaves Ok e g.old := by
  induction ts using olds.induct with
  | case1 old new ts ih =>
    rw [leaveInTurn, Bool.and_eq_true, List.all_eq_true] at h
    refine List.pairwise_cons.mpr ⟨fun g hg => Edit.Leaves.of_adds (h.1 _ ?_), ih h.2⟩
    rw [← map_old_betweens]
    exact List.mem_map_of_mem hg
  | case2 ts hts =>
    rw [betweens]
    · exact List.Pairwise.nil
    · exact hts

theorem stays_sites : ∀ e ∈ hybridSites ++ perGroupSites, Edit.Stays Placed e := by
  obtain ⟨hhybrid, -, hperGroup, -, -, -, hkeeps, -⟩ := sites_sound
  intro e he t ht hne
  have hplace : Edit.Leaves Placed e place := by
    rcases List.mem_append.mp he with he | he
    · exact leaves_of_leaveAll hhybrid e he place List.mem_cons_self
    · exact leaves_of_leaveAll hperGroup e he place List.mem_cons_self
  refine ⟨(hplace t ht hne).trans ht.once, ?_⟩
  rw [← occ_pos_iff (List.cons_ne_nil _ _)]
  exact ((occ_pos_iff (List.cons_ne_nil _ _)).mpr ht.line).trans_le
    (Edit.occ_le_apply hne (List.all_eq_true.mp hkeeps e he))

/-- What the replacements look for are the anchors but the statement. -/
theorem map_old_sites :
    (hybridSites ++ (perGroupSites ++ fineSites)).map Edit.old = anchors.tail.map joinLines := by
  rw [List.map_append, List.map_append, hybridSites, perGroupSites, fineSites, map_old_betweens,
    map_old_betweens, map_old_betweens]
  rfl

theorem exists_anchor {e : Edit Char} (he : e ∈ hybridSites ++ (perGroupSites ++ fineSites)) :
    ∃ a ∈ anchors, e.old = joinLines a := by
  have hmem : e.old ∈ anchors.tail.map joinLines := by
    rw [← map_old_sites]
    exact List.mem_map_of_mem he
  obtain ⟨a, ha, heq⟩ := List.mem_map.mp hmem
  exact ⟨a, List.mem_of_mem_tail ha, heq.symm⟩

/-! ### The edits of the per-group retention -/

/-- All edits of the per-group retention but that of the helper that it shares. -/
def perGroupEdits : List (Edit Char) :=
  PerGroupRetention.importEdit :: PerGroupRetention.retentionEdit :: PerGroupRetention.blockEdits

theorem mem_perGroupEdits {g : Edit Char} (hg : g ∈ perGroupEdits) :
    g = insertion (joinLines PerGroupRetention.retentionHelper) ∨ g ∈ perGroupSites := by
  rcases List.mem_cons.mp hg with rfl | hg
  · exact .inr List.mem_cons_self
  · rcases List.mem_cons.mp hg with rfl | hg
    · exact .inl retentionEdit_eq
    · exact .inr (List.mem_cons_of_mem _ hg)

theorem stays_perGroup : ∀ g ∈ perGroupEdits, Edit.Stays Placed g := by
  obtain ⟨-, ⟨-, -, hretention⟩, -⟩ := inserts_sound
  intro g hg
  rcases mem_perGroupEdits hg with rfl | hg
  · exact stays_insertion hretention
  · exact stays_sites g (List.mem_append_right _ hg)

theorem exists_anchor_perGroup {g : Edit Char} (hg : g ∈ perGroupEdits) :
    ∃ a ∈ anchors, g.old = joinLines a := by
  rcases mem_perGroupEdits hg with rfl | hg
  · exact ⟨_, List.mem_cons_self, old_insertion _⟩
  · exact exists_anchor (List.mem_append_right _ (List.mem_append_left _ hg))

theorem pairwise_perGroup : perGroupEdits.Pairwise fun e g => Edit.Leaves Placed e g.old := by
  obtain ⟨-, -, hplace, hturn, -⟩ := sites_sound
  obtain ⟨-, ⟨-, -, hretention⟩, -⟩ := inserts_sound
  have hsites : perGroupSites.Pairwise fun e g => Edit.Leaves Placed e g.old :=
    pairwise_of_leaveInTurn hturn
  obtain ⟨himport, hblocks⟩ := List.pairwise_cons.mp hsites
  refine List.pairwise_cons.mpr ⟨fun g hg => ?_, List.pairwise_cons.mpr ⟨fun g hg => ?_, hblocks⟩⟩
  · rcases List.mem_cons.mp hg with rfl | hg
    · rw [retentionEdit_eq, old_insertion]
      exact leaves_of_leaveAll hplace _ List.mem_cons_self place List.mem_cons_self
    · exact himport g hg
  · obtain ⟨a, ha, heq⟩ :=
      exists_anchor_perGroup (List.mem_cons_of_mem _ (List.mem_cons_of_mem _ hg))
    rw [heq]
    exact leaves_insertion hretention (List.mem_cons_of_mem _ ha)

theorem independent_perGroup : ∀ e ∈ hybridSites, ∀ g ∈
    perGroupEdits, Edit.Independent Placed e g := by
  obtain ⟨hhybrid, -, hperGroup, -, -, -, -, hapart, hplace⟩ := sites_sound
  obtain ⟨-, ⟨-, -, hretention⟩, -⟩ := inserts_sound
  intro e he g hg
  have hold : e.old ∈ olds (hybridTexts.map joinLines) := by
    rw [← map_old_betweens]
    exact List.mem_map_of_mem he
  rcases mem_perGroupEdits hg with rfl | hg
  · obtain ⟨a, ha, heq⟩ := exists_anchor (List.mem_append_left _ he)
    refine ⟨?_, ?_, ?_⟩
    · rw [old_insertion]
      exact List.all_eq_true.mp (List.all_eq_true.mp hplace place List.mem_cons_self) _ hold
    · rw [old_insertion]
      exact leaves_of_leaveAll hhybrid e he place List.mem_cons_self
    · rw [heq]
      exact leaves_insertion hretention (List.mem_cons_of_mem _ ha)
  · have hold' : g.old ∈ olds (perGroupTexts.map joinLines) := by
      rw [← map_old_betweens]
      exact List.mem_map_of_mem hg
    exact ⟨List.all_eq_true.mp (List.all_eq_true.mp hapart _ hold') _ (List.mem_cons_of_mem _ hold),
      leaves_of_leaveAll hhybrid e he _ (List.mem_cons_of_mem _ (List.mem_cons_of_mem _ hold')),
      leaves_of_leaveAll hperGroup g hg _ (List.mem_cons_of_mem _ hold)⟩

/-! ### From a pristine file -/

namespace Pristine

variable {t : Text} (ht : Pristine t)

include ht

theorem occ_anchor {a : List String} (ha : a ∈ anchors) : occ (joinLines a) t = 1 := by
  rw [← count_eq_occ (inserts_sound.2.2 a ha)]
  exact ht.once a ha

theorem occ_place : occ place t = 1 := ht.occ_anchor List.mem_cons_self

theorem clear {a : List String} (ha : a ∈ PerGroupRetention.importOs :: anchors) :
    Clear (joinLines a) t :=
  ht.lines a ha

theorem unguarded : isIn guard t = false := by
  rw [← Bool.not_eq_true, ht.after.guarded]
  exact not_not.mpr rfl

/-- With a helper the statement is on a line of its own. -/
theorem placed {ins : Text} (hins : IsHelper ins) : Placed ((insertion ins).apply t) :=
  placed_insertion hins ht.occ_place (ht.clear (List.mem_cons_of_mem _ List.mem_cons_self))

theorem occ_old {ins : Text} (hins : IsHelper ins) {e : Edit Char}
    (he : ∃ a ∈ anchors, e.old = joinLines a) :
    occ e.old ((insertion ins).apply t) = 1 := by
  obtain ⟨a, ha, heq⟩ := he
  rw [heq, occ_insertion hins (List.mem_cons_of_mem _ ha) ht.occ_place
    (ht.clear (List.mem_cons_of_mem _ ha)), ht.occ_anchor ha]

/-- Behind a helper, the edits of the hybrid prefix hit find their texts. -/
theorem finds_hybrid {ins : Text} (hins : IsHelper ins) :
    Edit.FindsOnce hybridSites ((insertion ins).apply t) := by
  obtain ⟨-, hturn, -⟩ := sites_sound
  exact Edit.findsOnce_of_leaves (pairwise_of_leaveInTurn hturn)
    (fun e he => stays_sites e (List.mem_append_left _ he)) (ht.placed hins)
    fun e he => ht.occ_old hins (exists_anchor (List.mem_append_left _ he))

end Pristine

/-- The import that the per-group retention brings to a text. -/
def importFor (t : Text) : List (Edit Char) :=
  if isIn (joinLines PerGroupRetention.importOs) t then [] else [PerGroupRetention.importEdit]

/-- The edits that it makes of a text with the helper. -/
def perGroupFor (t : Text) : List (Edit Char) :=
  importFor t ++ PerGroupRetention.retentionEdit :: PerGroupRetention.blockEdits

theorem perGroupFor_sublist (t : Text) : (perGroupFor t).Sublist perGroupEdits := by
  rw [perGroupFor, importFor]
  split_ifs
  · exact List.sublist_cons_self _ _
  · exact List.Sublist.refl _

theorem Placed.finds_perGroup {s : Text} (hs : Placed s) (t : Text)
    (hone : ∀ g ∈ perGroupEdits, occ g.old s = 1) : Edit.FindsOnce (perGroupFor t) s := by
  have hsub := (perGroupFor_sublist t).subset
  exact Edit.findsOnce_of_leaves (pairwise_perGroup.sublist (perGroupFor_sublist t))
    (fun g hg => stays_perGroup g (hsub hg)) hs fun g hg => hone g (hsub hg)

/-- The hybrid prefix hit after other overlays. -/
theorem After.main_eq {done : List Patcher} {s : Text} (h : After done s) (hne : done ≠ [])
    (hnew : .hybrid ∉ done) (hplace : occ place s = 1) (hfinds : Edit.FindsOnce hybridSites s) :
    HybridPrefixHit.main (some s) = some (Edit.applyAll hybridSites s) := by
  have hguard : isIn (joinLines HybridPrefixHit.guardLine) s = true := h.guarded.mpr hne
  have hmain := HybridPrefixHit.main_of_finds (h.unmarked hnew) hplace
  rw [hguard, if_pos rfl, List.nil_append] at hmain
  rw [hybridSites_eq] at hfinds ⊢
  exact hmain hfinds

/-- The per-group retention after other overlays. -/
theorem After.patch_eq {done : List Patcher} {s : Text} (h : After done s) (hne : done ≠ [])
    (hnew : .perGroup ∉ done) (hplace : occ place s = 1)
    (hfinds : Edit.FindsOnce (perGroupFor s) s) :
    PerGroupRetention.patch s = some (Edit.applyAll (perGroupFor s) s) := by
  have hguard : isIn (joinLines HybridPrefixHit.guardLine) s = true := h.guarded.mpr hne
  have hpatch := PerGroupRetention.patch_of_finds (h.unmarked hnew) hplace
  rw [hguard, if_pos rfl, List.nil_append] at hpatch
  exact hpatch hfinds

namespace Pristine

variable {t : Text} (ht : Pristine t) {parses : Text → Bool}

include ht

/-- The hybrid prefix hit, first. -/
theorem main_eq : HybridPrefixHit.main (some t) =
    some (Edit.applyAll hybridSites (HybridPrefixHit.helperEdit.apply t)) := by
  obtain ⟨-, ⟨hhelper, -⟩, -⟩ := inserts_sound
  have hguard : isIn (joinLines HybridPrefixHit.guardLine) t = false := ht.unguarded
  have hplace : occ HybridPrefixHit.helperEdit.old t = 1 := by
    rw [helperEdit_eq, old_insertion]
    exact ht.occ_place
  have hfinds : Edit.FindsOnce (HybridPrefixHit.helperEdit :: hybridSites) t :=
    ⟨hplace, ht.finds_hybrid hhelper⟩
  rw [hybridSites_eq] at hfinds ⊢
  have h := HybridPrefixHit.main_of_finds (ht.marks .hybrid) ht.occ_place
  rw [hguard, if_neg Bool.false_ne_true, List.singleton_append] at h
  rw [h hfinds, Edit.applyAll_cons]

/-- The edits of the per-group retention find their texts behind the helper. -/
theorem finds_perGroup : Edit.FindsOnce (perGroupFor t) (HybridPrefixHit.helperEdit.apply t) := by
  obtain ⟨-, ⟨hhelper, -⟩, -⟩ := inserts_sound
  rw [helperEdit_eq]
  exact (ht.placed hhelper).finds_perGroup t fun g hg =>
    ht.occ_old hhelper (exists_anchor_perGroup hg)

/-- The import and the helper may change places. -/
theorem import_comm :
    occ PerGroupRetention.importEdit.old t = 1 ∧
      occ HybridPrefixHit.helperEdit.old (PerGroupRetention.importEdit.apply t) = 1 ∧
      PerGroupRetention.importEdit.apply (HybridPrefixHit.helperEdit.apply t) =
        HybridPrefixHit.helperEdit.apply (PerGroupRetention.importEdit.apply t) := by
  obtain ⟨-, -, hperGroup, -, -, -, -, hapart, -⟩ := sites_sound
  obtain ⟨-, ⟨hhelper, -⟩, -⟩ := inserts_sound
  have hmem : PerGroupRetention.importEdit ∈ perGroupEdits := List.mem_cons_self
  obtain ⟨a, ha, hold⟩ := exists_anchor_perGroup hmem
  have himport : occ PerGroupRetention.importEdit.old t = 1 := by
    rw [hold]
    exact ht.occ_anchor ha
  have hplace : occ place (PerGroupRetention.importEdit.apply t) = 1 := by
    have hleaves : Edit.Leaves (fun _ => True) PerGroupRetention.importEdit place :=
      leaves_of_leaveAll hperGroup _ (by rw [perGroupSites_eq]; exact List.mem_cons_self) place
        List.mem_cons_self
    rw [hleaves t trivial (by omega)]
    exact ht.occ_place
  have hafter := ht.occ_old hhelper ⟨a, ha, hold⟩
  have hapart' : Edit.apart PerGroupRetention.importEdit.old place = true := by
    have hmem' : PerGroupRetention.importEdit.old ∈ olds (perGroupTexts.map joinLines) := by
      rw [← map_old_betweens]
      exact List.mem_map_of_mem
        (by rw [← perGroupSites, perGroupSites_eq]; exact List.mem_cons_self)
    exact List.all_eq_true.mp (List.all_eq_true.mp hapart _ hmem') _ List.mem_cons_self
  have hne : PerGroupRetention.importEdit.old ≠ [] := by
    rw [hold]
    intro hnil
    exact (inserts_sound.1 a (List.mem_cons_of_mem _ ha)).long (by rw [hnil]; rfl)
  rw [helperEdit_eq] at *
  rw [old_insertion]
  refine ⟨himport, hplace, Edit.apply_comm ?_ hne ?_ ?_ himport ?_ hafter⟩
  · rw [old_insertion]
    exact place_ne_nil
  · rwa [old_insertion]
  · rw [old_insertion]
    exact ht.occ_place
  · rwa [old_insertion]

/-- The per-group retention, first. -/
theorem patch_eq : PerGroupRetention.patch t =
    some (Edit.applyAll (perGroupFor t) (HybridPrefixHit.helperEdit.apply t)) := by
  have hguard : isIn (joinLines HybridPrefixHit.guardLine) t = false := ht.unguarded
  have hfinds := ht.finds_perGroup
  have hscript : Edit.FindsOnce (importFor t ++ ([HybridPrefixHit.helperEdit] ++
        PerGroupRetention.retentionEdit :: PerGroupRetention.blockEdits)) t ∧
      Edit.applyAll (importFor t ++ ([HybridPrefixHit.helperEdit] ++
        PerGroupRetention.retentionEdit :: PerGroupRetention.blockEdits)) t =
        Edit.applyAll (perGroupFor t) (HybridPrefixHit.helperEdit.apply t) := by
    rw [perGroupFor, importFor] at *
    cases hos : isIn (joinLines PerGroupRetention.importOs) t with
    | true =>
      rw [hos, if_pos rfl, List.nil_append] at hfinds
      rw [if_pos rfl, List.nil_append]
      refine ⟨⟨?_, hfinds⟩, ?_⟩
      · rw [helperEdit_eq, old_insertion]
        exact ht.occ_place
      · rw [List.nil_append, List.singleton_append, Edit.applyAll_cons]
    | false =>
      obtain ⟨himport, hplace, hcomm⟩ := ht.import_comm
      rw [hos, if_neg Bool.false_ne_true, List.singleton_append] at hfinds
      rw [if_neg Bool.false_ne_true, List.singleton_append]
      obtain ⟨-, hrest⟩ := hfinds
      rw [hcomm] at hrest
      refine ⟨⟨himport, hplace, hrest⟩, ?_⟩
      rw [Edit.applyAll_cons, List.singleton_append, Edit.applyAll_cons, ← hcomm,
        List.singleton_append]
      exact (Edit.applyAll_cons _ _ _).symm
  have h := PerGroupRetention.patch_of_finds (ht.marks .perGroup) ht.occ_place
  rw [hguard, if_neg Bool.false_ne_true] at h
  rw [h hscript.1]
  exact congrArg some hscript.2

/-- What the hybrid prefix hit leaves behind the helper. -/
theorem kept_hybrid :
    Placed (Edit.applyAll hybridSites (HybridPrefixHit.helperEdit.apply t)) ∧
      perGroupFor (Edit.applyAll hybridSites (HybridPrefixHit.helperEdit.apply t)) = perGroupFor t ∧
      Edit.FindsOnce (perGroupFor t)
        (Edit.applyAll hybridSites (HybridPrefixHit.helperEdit.apply t)) := by
  obtain ⟨hhybrid, -⟩ := sites_sound
  obtain ⟨-, ⟨hhelper, -⟩, -⟩ := inserts_sound
  rw [helperEdit_eq]
  set t₁ := (insertion (joinLines HybridPrefixHit.helper)).apply t
  have hkept : ∀ x, (∀ e ∈ hybridSites, Edit.Leaves Placed e x) →
      occ x (Edit.applyAll hybridSites t₁) = occ x t₁ ∧ Placed (Edit.applyAll hybridSites t₁) :=
    fun x hx => Edit.Leaves.applyAll hx (fun e he => stays_sites e (List.mem_append_left _ he))
      (ht.placed hhelper) (ht.finds_hybrid hhelper).finds
  have hplaced := (hkept place fun e he => leaves_of_leaveAll hhybrid e he _ List.mem_cons_self).2
  have himport : occ (joinLines PerGroupRetention.importOs) (Edit.applyAll hybridSites t₁) =
      occ (joinLines PerGroupRetention.importOs) t := by
    rw [(hkept _ fun e he =>
      leaves_of_leaveAll hhybrid e he _ (List.mem_cons_of_mem _ List.mem_cons_self)).1]
    exact occ_insertion hhelper List.mem_cons_self ht.occ_place (ht.clear List.mem_cons_self)
  refine ⟨hplaced, ?_, hplaced.finds_perGroup t fun g hg => ?_⟩
  · rw [perGroupFor, perGroupFor, importFor, importFor, isIn, isIn, himport]
  · rw [(hkept g.old fun e he => (independent_perGroup e he g hg).left).1]
    exact ht.occ_old hhelper (exists_anchor_perGroup hg)

/-- What the per-group retention leaves behind the helper. -/
theorem kept_perGroup :
    Placed (Edit.applyAll (perGroupFor t) (HybridPrefixHit.helperEdit.apply t)) ∧
      Edit.FindsOnce hybridSites
        (Edit.applyAll (perGroupFor t) (HybridPrefixHit.helperEdit.apply t)) := by
  obtain ⟨-, hturn, -⟩ := sites_sound
  obtain ⟨-, ⟨hhelper, -⟩, -⟩ := inserts_sound
  have hfinds := ht.finds_perGroup.finds
  rw [helperEdit_eq] at hfinds ⊢
  set t₁ := (insertion (joinLines HybridPrefixHit.helper)).apply t
  have hsub := (perGroupFor_sublist t).subset
  have hkept : ∀ e ∈ hybridSites, occ e.old (Edit.applyAll (perGroupFor t) t₁) = occ e.old t₁ ∧
      Placed (Edit.applyAll (perGroupFor t) t₁) := fun e he =>
    Edit.Leaves.applyAll (fun g hg => (independent_perGroup e he g (hsub hg)).right)
      (fun g hg => stays_perGroup g (hsub hg)) (ht.placed hhelper) hfinds
  have hplaced : Placed (Edit.applyAll (perGroupFor t) t₁) :=
    (hkept HybridPrefixHit.eagleEdit (by rw [hybridSites_eq]; exact List.mem_cons_self)).2
  refine ⟨hplaced, Edit.findsOnce_of_leaves (pairwise_of_leaveInTurn hturn)
    (fun e he => stays_sites e (List.mem_append_left _ he)) hplaced fun e he => ?_⟩
  rw [(hkept e he).1]
  exact ht.occ_old hhelper (exists_anchor (List.mem_append_left _ he))

/-- **Both orders give the same file.** -/
theorem hybrid_perGroup_comm : ∃ t', runs parses [.hybrid, .perGroup] t = some t' ∧
    runs parses [.perGroup, .hybrid] t = some t' := by
  obtain ⟨-, ⟨hhelper, -⟩, -⟩ := inserts_sound
  have hsub := (perGroupFor_sublist t).subset
  -- the per-group retention after the hybrid prefix hit
  have hrun₁ : Patcher.run parses .hybrid t = some _ := ht.main_eq
  obtain ⟨hplaced₁, hfor, hfinds₁⟩ := ht.kept_hybrid
  have hrun₁₂ : Patcher.run parses .perGroup _ = some _ :=
    (ht.after.run List.not_mem_nil hrun₁).patch_eq (by simp) (by simp) hplaced₁.once
      (by rwa [hfor])
  rw [hfor] at hrun₁₂
  -- the hybrid prefix hit after the per-group retention
  have hrun₂ : Patcher.run parses .perGroup t = some _ := ht.patch_eq
  obtain ⟨hplaced₂, hfinds₂⟩ := ht.kept_perGroup
  have hrun₂₁ : Patcher.run parses .hybrid _ = some _ :=
    (ht.after.run List.not_mem_nil hrun₂).main_eq (by simp) (by simp) hplaced₂.once hfinds₂
  have hne : ∀ e : Edit Char, (∃ a ∈ anchors, e.old = joinLines a) → e.old ≠ [] := by
    rintro e ⟨a, ha, heq⟩ hnil
    rw [heq] at hnil
    exact (inserts_sound.1 a (List.mem_cons_of_mem _ ha)).long (by rw [hnil]; rfl)
  have hplaced := ht.placed hhelper
  have hfinds := ht.finds_hybrid hhelper
  rw [← helperEdit_eq] at hplaced hfinds
  obtain ⟨-, hcomm⟩ := Edit.applyAll_comm
    (fun e he => hne e (exists_anchor (List.mem_append_left _ he)))
    (fun g hg => hne g (exists_anchor_perGroup (hsub hg)))
    (fun e he => stays_sites e (List.mem_append_left _ he)) (fun g hg => stays_perGroup g (hsub hg))
    (fun e he g hg => independent_perGroup e he g (hsub hg)) hplaced hfinds hfinds₁
  refine ⟨Edit.applyAll (perGroupFor t)
    (Edit.applyAll hybridSites (HybridPrefixHit.helperEdit.apply t)), ?_, ?_⟩
  · rw [runs, hrun₁, Option.bind_some, runs, hrun₁₂, Option.bind_some, runs]
  · rw [runs, hrun₂, Option.bind_some, runs, hrun₂₁, Option.bind_some, runs, hcomm]

/-- The fine-grained prefix cache and then the hybrid prefix hit. -/
theorem exists_fineGrained_hybrid (hparses : ∀ s, parses s = true) :
    ∃ t', runs parses [.fineGrained, .hybrid] t = some t' := by
  obtain ⟨-, hturn, -, -, hfine, hturnFine, -⟩ := sites_sound
  obtain ⟨-, ⟨-, hhelper, -⟩, -⟩ := inserts_sound
  have hplaced := ht.placed hhelper
  have hold : ∀ e : Edit Char, (∃ a ∈ anchors, e.old = joinLines a) → occ e.old _ = 1 :=
    fun e he => ht.occ_old hhelper he
  have hany : ∀ e : Edit Char, Edit.Stays (fun _ => True) e := fun _ _ _ _ => trivial
  have hfinds : Edit.FindsOnce fineSites ((insertion (joinLines FineGrainedApc.helper)).apply t) :=
    Edit.findsOnce_of_leaves (pairwise_of_leaveInTurn hturnFine) (fun e _ => hany e) trivial
      fun e he => hold e (exists_anchor (List.mem_append_right _ (List.mem_append_right _ he)))
  rw [← fineHelperEdit_eq] at hplaced hold hfinds
  -- the fine-grained prefix cache
  have hveto : isIn (joinLines FineGrainedApc.vetoOld) t = true := by
    rw [isIn, ht.occ_anchor (by simp [anchors])]
    rfl
  have hscript : Edit.FindsOnce (FineGrainedApc.helperEdit :: fineSites) t := by
    refine ⟨?_, hfinds⟩
    rw [fineHelperEdit_eq, old_insertion]
    exact ht.occ_place
  rw [fineSites_eq] at hscript
  have hrun : Patcher.run parses .fineGrained t = some (Edit.applyAll fineSites _) :=
    (FineGrainedApc.patchFile_of_finds (ht.marks .fineGrained) ht.unguarded ht.occ_place hveto
      hscript).trans (FineGrainedApc.parsed_eq_some.mpr ⟨hparses _, by
        rw [Edit.applyAll_cons, fineSites_eq]⟩)
  -- the hybrid prefix hit behind it
  have hkept : ∀ x ∈ place :: olds (hybridTexts.map joinLines),
      occ x (Edit.applyAll fineSites (FineGrainedApc.helperEdit.apply t)) =
        occ x (FineGrainedApc.helperEdit.apply t) := fun x hx =>
    (Edit.Leaves.applyAll (fun e he => leaves_of_leaveAll hfine e he x hx)
      (fun e _ => hany e) trivial
      hfinds.finds).1
  have hplace : occ place (Edit.applyAll fineSites (FineGrainedApc.helperEdit.apply t)) = 1 :=
    (hkept place List.mem_cons_self).trans hplaced.once
  have hfinds' : Edit.FindsOnce hybridSites
      (Edit.applyAll fineSites (FineGrainedApc.helperEdit.apply t)) := by
    refine Edit.findsOnce_of_leaves (pairwise_of_leaveInTurn hturn) (fun e _ => hany e) trivial
      fun e he => ?_
    rw [hkept e.old (List.mem_cons_of_mem _ (by
      rw [← map_old_betweens]
      exact List.mem_map_of_mem he))]
    exact hold e (exists_anchor (List.mem_append_left _ he))
  have hrun' : Patcher.run parses .hybrid _ = some _ :=
    (ht.after.run List.not_mem_nil hrun).main_eq (by simp) (by simp) hplace hfinds'
  exact ⟨_, by rw [runs, hrun, Option.bind_some, runs, hrun', Option.bind_some, runs]⟩

end Pristine

/-! ### The overlays, together -/

/-- **The overlays of the coordinator**: of a pristine file, a sequence of runs makes one in which
every helper is defined once, every overlay is complete and another run changes nothing, unless the
fine-grained prefix cache is the first of several; and the other two may change places. -/
theorem overlays_compose (parses : Text → Bool) {t : Text} (ht : Pristine t) :
    (∀ order t', order ≠ [] → order.Nodup → runs parses order t = some t' →
      ((Wired t' ∧ ∀ o ∈ order, o.Complete t' ∧ Unchanged parses o t') ↔ goodOrder order = true)) ∧
    ∃ t', runs parses [.hybrid, .perGroup] t = some t' ∧
      runs parses [.perGroup, .hybrid] t = some t' :=
  ⟨fun _ _ hne hnodup hruns => composed_iff ht hne hnodup hruns, ht.hybrid_perGroup_comm⟩

/-- A small coordinator. -/
def source : List String :=
  ["from abc import ABC, abstractmethod",
   "from collections.abc import Sequence",
   "",
   "",
   "def _validate_prefix_cache_retention_interval(",
   "    retention_interval, scheduler_block_size, kv_cache_config",
   "):",
   "    return None",
   "",
   "",
   "class KVCacheCoordinator(ABC):",
   "    def __init__(self, kv_cache_config, use_eagle):",
   "        # Conservatively fall back to flag all groups when no group is flagged.",
   "        if use_eagle and not self.eagle_group_ids:",
   "            self.eagle_group_ids = set(range(len(kv_cache_config.kv_cache_groups)))",
   "        self.retention_interval = envs.VLLM_PREFIX_CACHE_RETENTION_INTERVAL",
   "        _validate_prefix_cache_retention_interval(",
   "            self.retention_interval, self.scheduler_block_size, kv_cache_config",
   "        )",
   "",
   "    def cache_blocks(self, request, num_computed_tokens):",
   "        for manager in self.single_type_managers:",
   "            manager.cache_blocks(",
   "                request,",
   "                num_computed_tokens,",
   "                retention_interval=self.retention_interval,",
   "            )",
   "",
   "",
   "class HybridKVCacheCoordinator(KVCacheCoordinator):",
   "    def __init__(self, kv_cache_config, hash_block_size):",
   "        if self.enable_partial_hash_hits:",
   "            unsupported_partial_hit_managers = \x7b",
   "                type(manager).__name__",
   "                for manager in self.single_type_managers",
   "                if not manager.supports_fine_grained_hash_lookup",
   "                and manager.block_size != hash_block_size",
   "            \x7d",
   "        self.verify_and_split_kv_cache_groups()",
   "        # Propagate the eagle bit to each manager (default to ``use_eagle=False``).",
   "        for group in self.attention_groups:",
   "            if group.use_eagle:",
   "                for gid in group.group_ids:",
   "                    self.single_type_managers[gid].use_eagle = True",
   "",
   "    def cache_blocks(self, request, aligned_num_computed_tokens):",
   "        for manager in self.single_type_managers:",
   "            num_tokens_to_cache = aligned_num_computed_tokens",
   "            manager.cache_blocks(",
   "                request,",
   "                num_tokens_to_cache,",
   "                retention_interval=self.retention_interval,",
   "            )",
   "",
   "    def find_longest_cache_hit(self, curr_hit_length):",
   "        while True:",
   "            for idx, drop_eagle_block in enumerate(self.attention_groups):",
   "                if drop_eagle_block:",
   "                    eagle_verified.add(idx)",
   "                elif _new_hit_length < curr_hit_length:",
   "                    # length shrunk; invalidate previous eagle verifications",
   "                    eagle_verified.clear()",
   "                curr_hit_length = _new_hit_length",
   "                for group_id, blocks in zip(group_ids, hit_blocks):",
   "                    hit_blocks_by_group[group_id] = blocks",
   "                    hit_length_by_group[group_id] = _new_hit_length",
   "",
   "                longest_hit_length = max(longest_hit_length, curr_hit_length)",
   "            return longest_hit_length",
   ""]

/-- A check for `Pristine`. -/
def pristine : List Text → Bool
  | t :: anyName :: hybridMark :: perGroupMark :: fineMark :: importOs :: place :: anchors =>
    (place :: anchors).all (fun a => occurs a t == 1) &&
      (importOs :: place :: anchors).all (fun a =>
        a.getLast? != some '\n' || occurs (a.dropLast ++ place) t == 0) &&
      [anyName, hybridMark, perGroupMark, fineMark].all fun x => occurs x t == 0
  | _ => false

set_option maxRecDepth 40000 in
theorem pristine_texts :
    pristine ((source :: Pattern.anyName.lines :: HybridPrefixHit.markLines ::
      PerGroupRetention.markLines :: FineGrainedApc.markerLines :: PerGroupRetention.importOs ::
      anchors).map joinLines) = true := by
  apply check_of_spelled pristine
  · unfold source anchors HybridPrefixHit.markLines PerGroupRetention.markLines
      FineGrainedApc.markerLines PerGroupRetention.importOs HybridPrefixHit.needle
      HybridPrefixHit.eagleOld HybridPrefixHit.minOld HybridPrefixHit.logOld
      PerGroupRetention.importOld PerGroupRetention.initOld PerGroupRetention.baseCacheOld
      PerGroupRetention.hybridLoopOld PerGroupRetention.hybridCacheOld FineGrainedApc.vetoOld
      FineGrainedApc.diagOld
    simp only [Pattern.lines]
    repeat (first
      | exact SpelledAll.nil | apply SpelledAll.cons | exact Spelled.nil | apply Spelled.cons)
  · decide +kernel

theorem pristine_source : Pristine (joinLines source) := by
  have hanchors : anchors = HybridPrefixHit.needle :: anchors.tail := rfl
  have h := pristine_texts
  rw [hanchors] at h
  simp only [List.map_cons, pristine, Bool.and_eq_true] at h
  rw [← List.map_cons, ← List.map_cons, ← hanchors] at h
  obtain ⟨⟨honce, hlines⟩, habsent⟩ := h
  have habsent' : ∀ x : Text, (occurs x (joinLines source) == 0) = true →
      isIn x (joinLines source) = false := fun x hx => by
    rw [isIn, ← occurs_eq, beq_iff_eq.mp hx]
    rfl
  simp only [List.all_cons, List.all_nil, Bool.and_true, Bool.and_eq_true] at habsent
  obtain ⟨hname, hhybrid, hperGroup, hfine⟩ := habsent
  refine ⟨fun a ha => ?_, fun a ha x hx => ?_, habsent' _ hname, fun o => ?_⟩
  · rw [count_eq_occ (inserts_sound.2.2 a ha), ← occurs_eq]
    exact beq_iff_eq.mp (List.all_eq_true.mp honce _ (List.mem_map_of_mem ha))
  · have hline := List.all_eq_true.mp hlines _ (List.mem_map_of_mem ha)
    rw [hx, List.getLast?_concat, List.dropLast_concat, bne_self_eq_false, Bool.false_or,
      beq_iff_eq, occurs_eq] at hline
    refine (occ_eq_zero_iff fun hnil => ?_).mp hline
    exact place_ne_nil (List.append_eq_nil_iff.mp hnil).2
  · cases o with
    | hybrid => exact habsent' _ hhybrid
    | perGroup => exact habsent' _ hperGroup
    | fineGrained => exact habsent' _ hfine

/-- The hybrid prefix hit and the per-group retention make the same file of it in both orders, with
every helper defined once. -/
theorem overlays_compose_source : ∃ t', runs (fun _ => true) [.hybrid, .perGroup]
    (joinLines source) = some t' ∧
    runs (fun _ => true) [.perGroup, .hybrid] (joinLines source) = some t' ∧ Wired t' := by
  obtain ⟨hruns, t', hhybrid, hperGroup⟩ := overlays_compose (fun _ => true) pristine_source
  have h := (hruns [.hybrid, .perGroup] t' (by decide) (by decide) hhybrid).mpr (by decide)
  exact ⟨t', hhybrid, hperGroup, h.1⟩

/-- With the fine-grained prefix cache first, the hybrid prefix hit leaves a call of a helper that
nothing defines. -/
theorem fineGrained_first : Pristine (joinLines source) ∧
    ∃ t', runs (fun _ => true) [.fineGrained, .hybrid] (joinLines source) = some t' ∧
      ¬ Wired t' := by
  obtain ⟨t', hruns⟩ := pristine_source.exists_fineGrained_hybrid fun _ => rfl
  refine ⟨pristine_source, t', hruns, fun hwired => ?_⟩
  have hafter := after_runs pristine_source.after (by decide) hruns
  exact Bool.false_ne_true ((hafter.wired_iff (by decide)).mp hwired)

end Glm53Serve.Overlay.Composition
