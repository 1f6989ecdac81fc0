import Glm53Serve.Overlay.Patchers

/-!
# The overlays of the coordinator, together

The overlays of `kv_cache_coordinator.py` are applied one after another, any of them, in any order.
Each brings the helpers that it needs unless a helper of the first one's name is there.

## The model

A sequence of runs, of which each has to succeed. A helper is any name with the prefix of the
overlays: it is called or defined where the name stands before a bracket.

## What is proved

* `after_runs` — what a sequence of runs adds to a file without overlays, and what of it is
  complete.
* `wired_iff` — when every helper that is called is defined once.
-/

namespace Glm53Serve.Overlay.Composition

open Py Occurrences

/-! ### Runs -/

/-- The text that a sequence of overlays leaves if every run succeeds. -/
def runs (parses : Text → Bool) : List Patcher → Text → Option Text
  | [], t => some t
  | o :: os, t => (o.run parses t).bind (runs parses os)

/-- The fine-grained prefix cache is not the first of several overlays. -/
def goodOrder : List Patcher → Bool
  | .fineGrained :: _ :: _ => false
  | _ => true

/-- A letter of a name. -/
def isNameChar (c : Char) : Bool := c.isAlphanum || c == '_' || decide (128 ≤ c.toNat)

/-- Where the helper of a name is called or defined. -/
def callOf (name : Text) : Text := Pattern.anyName.text ++ (name ++ ['('])

/-- Where it is defined. -/
def defOf (name : Text) : Text := joinLines ["def "] ++ callOf name

/-- Every helper that the text calls is defined in it, and each once. -/
def Wired (t : Text) : Prop :=
  ∀ name : Text, (∀ c ∈ name, isNameChar c = true) → callOf name <:+: t → occ (defOf name) t = 1

/-- Another run of the overlay leaves the file as it is, and succeeds if the file parses. -/
def Unchanged (parses : Text → Bool) (o : Patcher) (t : Text) : Prop :=
  (∀ t', o.run parses t = some t' → t' = t) ∧ (parses t = true → o.run parses t = some t)

/-! ### What a run adds -/

/-- What the cores of some overlays add. -/
def coreTotal : List Patcher → Pattern → ℕ
  | [], _ => 0
  | o :: os, p => coreGain o p + coreTotal os p

/-- What overlays add, of which the first brings its helper. -/
def expected : List Patcher → Pattern → ℕ
  | [], _ => 0
  | o :: os, p => helperGain o p + coreTotal (o :: os) p

theorem coreTotal_append (os : List Patcher) (o : Patcher) (p : Pattern) :
    coreTotal (os ++ [o]) p = coreTotal os p + coreGain o p := by
  induction os with
  | nil => simp [coreTotal]
  | cons a os ih => rw [List.cons_append, coreTotal, coreTotal, ih, Nat.add_assoc]

theorem expected_append (done : List Patcher) (o : Patcher) (p : Pattern) :
    expected (done ++ [o]) p =
      expected done p + (if done = [] then helperGain o p else 0) + coreGain o p := by
  cases done with
  | nil => simp [expected, coreTotal]
  | cons a os =>
    rw [List.cons_append, expected, ← List.cons_append, coreTotal_append, expected,
      if_neg (List.cons_ne_nil a os), Nat.add_zero, Nat.add_assoc]

theorem coreTotal_eq_zero {p : Pattern} (h : ∀ o, coreGain o p = 0) (os : List Patcher) :
    coreTotal os p = 0 := by
  induction os with
  | nil => rfl
  | cons o os ih => rw [coreTotal, h, ih]

/-- The overlays do not add each other's marks. -/
theorem expected_mark (done : List Patcher) (o : Patcher) : expected done (.mark o) = 0 := by
  cases done with
  | nil => rfl
  | cons a os =>
    rw [expected, coreTotal_eq_zero fun o' => by cases o' <;> rfl]
    cases a <;> rfl

/-- The first overlay defines the helper that the others look for. -/
theorem expected_guard (done : List Patcher) :
    expected done (.defined .innerKvSpec) = if done = [] then 0 else 1 := by
  cases done with
  | nil => rfl
  | cons a os =>
    rw [expected, coreTotal_eq_zero fun o' => by cases o' <;> rfl, if_neg (List.cons_ne_nil a os)]
    cases a <;> rfl

section Run

variable {parses : Text → Bool} {o : Patcher} {s s' : Text}

/-- The edits of a run, in their order. -/
theorem run_script (hmark : isIn (Pattern.mark o).text s = false)
    (hneedle : isIn guard s = false → count s (joinLines HybridPrefixHit.needle) = 1)
    (h : o.run parses s = some s') :
    ∃ imp, (imp = [] ∨ imp = o.importEdits) ∧
      Edit.Patches (imp ++ ((if isIn guard s = true then [] else [o.helperEdit]) ++ o.core))
        s s' := by
  obtain ⟨imp, t₁, t₂, himp, h₁, h₂, h₃⟩ := run_patches hmark hneedle h
  obtain ⟨-, -, hguard⟩ := gains_sound o (p := .defined .innerKvSpec) Pattern.noConfusion
  have hin : isIn guard t₁ = isIn guard s := by
    rcases himp with rfl | rfl
    · rw [isIn, isIn, h₁.occ_eq (n := 0) rfl]
      rfl
    · rw [isIn, isIn, guard, h₁.occ_eq hguard]
      rfl
  rw [hin] at h₂
  exact ⟨imp, himp, h₁.append (h₂.append h₃)⟩

/-- **What a run adds.** -/
theorem occ_run {p : Pattern} (hp : p ≠ .mark o) (hmark : isIn (Pattern.mark o).text s = false)
    (hneedle : isIn guard s = false → count s (joinLines HybridPrefixHit.needle) = 1)
    (h : o.run parses s = some s') :
    occ p.text s' =
      occ p.text s + (if isIn guard s = true then 0 else helperGain o p) + coreGain o p := by
  obtain ⟨imp, himp, hpatch⟩ := run_script hmark hneedle h
  obtain ⟨hhelper, hcore, himport⟩ := gains_sound o hp
  have hzero : Edit.addsAll p.text 0 imp = true := by
    rcases himp with rfl | rfl
    · rfl
    · exact himport
  have hoptional : Edit.addsAll p.text (if isIn guard s = true then 0 else helperGain o p)
      (if isIn guard s = true then [] else [o.helperEdit]) = true := by
    split_ifs
    · rfl
    · exact hhelper
  rw [hpatch.occ_eq (Edit.addsAll_append hzero (Edit.addsAll_append hoptional hcore))]
  omega

/-- A run keeps what the other overlays have put. -/
theorem parts_run {o' : Patcher} (hne : o' ≠ o) (hmark : isIn (Pattern.mark o).text s = false)
    (hguard : isIn guard s = true) (h : o.run parses s = some s') :
    ∀ x ∈ o'.parts, joinLines x <:+: s → joinLines x <:+: s' := by
  intro x hx hs
  obtain ⟨imp, himp, hpatch⟩ := run_script hmark (by simp [hguard]) h
  have hkept := kept_sound hne x hx
  rw [Patcher.edits, List.all_append, Bool.and_eq_true] at hkept
  rw [if_pos hguard, List.nil_append] at hpatch
  refine hpatch.infix_of_keeps ?_ hs
  rw [List.all_append, Bool.and_eq_true]
  rcases himp with rfl | rfl
  · exact ⟨rfl, hkept.2⟩
  · exact hkept

/-- What an overlay needs of the helper that is there. -/
def Patcher.ownHelper : Patcher → List String
  | .fineGrained => HybridPrefixHit.innerKvSpec
  | _ => HybridPrefixHit.helperCode

/-- A complete file stays complete. -/
theorem complete_run_of_ne {o' : Patcher} (hne : o' ≠ o)
    (hmark : isIn (Pattern.mark o).text s = false) (hguard : isIn guard s = true)
    (h : o.run parses s = some s') (hc : o'.Complete s) : o'.Complete s' := by
  have hparts := parts_run hne hmark hguard h
  cases o' with
  | hybrid =>
    simp only [Patcher.parts, List.forall_mem_cons] at hparts
    obtain ⟨hhelper, heagle, hmin, hlog, -⟩ := hparts
    exact ⟨hhelper hc.helper, heagle hc.eagle, hmin hc.min, hlog hc.log⟩
  | perGroup =>
    simp only [Patcher.parts, List.forall_mem_cons] at hparts
    obtain ⟨himport, hos, hbase, hretention, hinit, hcache, hloop, hhybrid, -⟩ := hparts
    exact ⟨hc.importOs.imp himport hos, hbase hc.baseHelper, hretention hc.retentionHelper,
      hinit hc.init, hcache hc.baseCache, hloop hc.hybridLoop, hhybrid hc.hybridCache⟩
  | fineGrained =>
    simp only [Patcher.parts, List.forall_mem_cons] at hparts
    obtain ⟨hhelper, hveto, hdiag, -⟩ := hparts
    exact ⟨hhelper hc.helper, hveto hc.veto, hdiag hc.diag⟩

/-- A run makes the file complete if the helper that is there, if any, is what the overlay needs. -/
theorem complete_run (hmark : isIn (Pattern.mark o).text s = false)
    (hneedle : isIn guard s = false → count s (joinLines HybridPrefixHit.needle) = 1)
    (h : o.run parses s = some s') (hown : isIn guard s = true → joinLines o.ownHelper <:+: s) :
    o.Complete s' := by
  cases o with
  | hybrid => exact (HybridPrefixHit.complete_of_unmarked hmark h).mpr hown
  | perGroup => exact (PerGroupRetention.complete_of_unmarked hmark h).mpr hown
  | fineGrained => exact FineGrainedApc.complete_of_unmarked hmark hneedle h hown

end Run

/-! ### Files without overlays -/

/-- The texts that the overlays look for. -/
def anchors : List (List String) :=
  [HybridPrefixHit.needle, HybridPrefixHit.eagleOld, HybridPrefixHit.minOld, HybridPrefixHit.logOld,
    PerGroupRetention.importOld, PerGroupRetention.initOld, PerGroupRetention.baseCacheOld,
    PerGroupRetention.hybridLoopOld, PerGroupRetention.hybridCacheOld, FineGrainedApc.vetoOld,
    FineGrainedApc.diagOld]

/-- A file without overlays, in which they can be installed. -/
structure Pristine (t : Text) : Prop where
  once : ∀ a ∈ anchors, count t (joinLines a) = 1
  /-- No line runs into the statement that the helpers go before, which begins a line in Python. -/
  lines : ∀ a ∈ PerGroupRetention.importOs :: anchors, ∀ x, joinLines a = x ++ ['\n'] →
    ¬ x ++ joinLines HybridPrefixHit.needle <:+: t
  /-- No name and no mark of an overlay. -/
  names : isIn Pattern.anyName.text t = false
  marks : ∀ o, isIn (Pattern.mark o).text t = false

/-- What a file holds after some overlays, in their order. -/
structure After (done : List Patcher) (s : Text) : Prop where
  counts : ∀ p, (∀ o ∈ done, p ≠ .mark o) → occ p.text s = expected done p
  needle : done = [] → count s (joinLines HybridPrefixHit.needle) = 1
  complete : goodOrder done = true → ∀ o ∈ done, o.Complete s

namespace After

variable {parses : Text → Bool} {done : List Patcher} {o : Patcher} {s s' : Text}

theorem unmarked (h : After done s) (ho : o ∉ done) : isIn (Pattern.mark o).text s = false := by
  have hcount := h.counts (.mark o) fun o' ho' heq => ho (by cases heq; exact ho')
  rw [isIn, hcount, expected_mark]
  rfl

theorem guarded (h : After done s) : isIn guard s = true ↔ done ≠ [] := by
  rw [isIn, guard, h.counts _ fun _ _ => Pattern.noConfusion, expected_guard, decide_eq_true_eq]
  split_ifs with hdone
  · exact iff_of_false (lt_irrefl 0) (not_not.mpr hdone)
  · exact iff_of_true Nat.one_pos hdone

theorem unguarded (h : After done s) (hg : isIn guard s = false) :
    count s (joinLines HybridPrefixHit.needle) = 1 := by
  refine h.needle ?_
  by_contra hne
  exact Bool.false_ne_true (hg.symm.trans (h.guarded.mpr hne))

/-- In a good order the first overlay brings what the next ones need. -/
theorem ownHelper_within (h : After done s) (hgood : goodOrder (done ++ [o]) = true)
    (hne : done ≠ []) : joinLines o.ownHelper <:+: s := by
  obtain ⟨a, os, rfl⟩ := List.exists_cons_of_ne_nil hne
  have hcode : joinLines HybridPrefixHit.helperCode <:+: s := by
    cases a with
    | hybrid => exact (h.complete rfl .hybrid List.mem_cons_self).helper
    | perGroup => exact (h.complete rfl .perGroup List.mem_cons_self).baseHelper
    | fineGrained => cases os <;> cases hgood
  cases o with
  | hybrid => exact hcode
  | perGroup => exact hcode
  | fineGrained => exact (joinLines_begins _ _).isInfix.trans hcode

/-- One more run. -/
theorem run (h : After done s) (ho : o ∉ done) (hrun : o.run parses s = some s') :
    After (done ++ [o]) s' := by
  refine ⟨fun p hp => ?_, fun hnil => absurd hnil (by simp), fun hgood o' ho' => ?_⟩
  · rw [occ_run (hp o (by simp)) (h.unmarked ho) h.unguarded hrun,
      h.counts p fun o' ho' => hp o' (List.mem_append_left _ ho'), expected_append]
    by_cases hdone : done = []
    · rw [if_pos hdone, if_neg (fun hg => h.guarded.mp hg hdone)]
    · rw [if_neg hdone, if_pos (h.guarded.mpr hdone)]
  · rcases List.mem_append.mp ho' with ho' | ho'
    · have hne : done ≠ [] := List.ne_nil_of_mem ho'
      have hgood' : goodOrder done = true := by
        rcases done with _ | ⟨_ | _ | _, _ | ⟨b, os⟩⟩ <;> first | rfl | cases hgood
      exact complete_run_of_ne (ne_of_mem_of_not_mem ho' ho) (h.unmarked ho)
        (h.guarded.mpr hne) hrun
        (h.complete hgood' o' ho')
    · obtain rfl := List.mem_singleton.mp ho'
      exact complete_run (h.unmarked ho) h.unguarded hrun fun hg =>
        h.ownHelper_within hgood (h.guarded.mp hg)

end After

/-- **What a sequence of runs adds.** -/
theorem after_runs {parses : Text → Bool} {done order : List Patcher} {s s' : Text}
    (h : After done s) (hnodup : (done ++ order).Nodup) (hruns : runs parses order s = some s') :
    After (done ++ order) s' := by
  induction order generalizing done s with
  | nil =>
    obtain rfl := Option.some.inj hruns
    rwa [List.append_nil]
  | cons o os ih =>
    obtain ⟨t, hrun, hrest⟩ := Option.bind_eq_some_iff.mp hruns
    have ho : o ∉ done := fun hmem =>
      (List.nodup_append.mp hnodup).2.2 o hmem o List.mem_cons_self rfl
    rw [List.append_cons] at hnodup ⊢
    exact ih (h.run ho hrun) hnodup hrest

/-! ### Names -/

/-- A name with the prefix and the letter behind it. -/
def splitsName (anyName x : Text) : Bool :=
  x == anyName ++ ((x.drop anyName.length).dropLast ++ [x.getLastD '_']) &&
    (x.drop anyName.length).dropLast.all isNameChar && !isNameChar (x.getLastD '_')

/-- No two of the texts agree. -/
def noneAgree : List Text → Bool
  | [] => true
  | x :: xs => xs.all (fun y => !agree x y) && noneAgree xs

/-- The names, the definitions and the asides. -/
def namesSound : List Text → Bool
  | anyName :: word :: texts =>
    let named := texts.take 8
    let aside := (texts.drop 8).take 6
    (named ++ aside).all (splitsName anyName) && noneAgree (named ++ aside) &&
      named.all (fun x => x.getLastD '_' == '(') && aside.all (fun x => x.getLastD '_' != '(') &&
      !anyName.isEmpty && texts.drop 14 == named.map (word ++ ·)
  | _ => false

theorem namesSound_texts :
    namesSound ((Pattern.anyName.lines :: ["def "] ::
      (mentions ++ helpers.map Pattern.defined).map Pattern.lines).map joinLines) = true := by
  apply check_of_spelled namesSound
  · simp only [mentions, helpers, asides, List.map_cons, List.map_nil, Pattern.lines,
      Helper.callLine,
      Helper.defLine, Aside.line, List.cons_append, List.nil_append]
    repeat (first
      | exact SpelledAll.nil | apply SpelledAll.cons | exact Spelled.nil | apply Spelled.cons)
  · decide +kernel

theorem names_sound :
    (∀ p ∈ mentions, splitsName Pattern.anyName.text p.text = true) ∧
      noneAgree (mentions.map Pattern.text) = true ∧
      (∀ f ∈ helpers, (Pattern.named f).text.getLastD '_' = '(') ∧
      (∀ a ∈ asides, (Pattern.aside a).text.getLastD '_' ≠ '(') ∧ Pattern.anyName.text ≠ [] ∧
      helpers.map (fun f => (Pattern.defined f).text) =
        helpers.map fun f => joinLines ["def "] ++ (Pattern.named f).text := by
  have h := namesSound_texts
  have hnamed :
    ((((mentions ++ helpers.map Pattern.defined).map Pattern.lines).map joinLines).take 8) =
      helpers.map fun f => (Pattern.named f).text := rfl
  have haside : (((((mentions ++ helpers.map Pattern.defined).map Pattern.lines).map joinLines).drop
      8).take 6) = asides.map fun a => (Pattern.aside a).text := rfl
  have hdefined :
    ((((mentions ++ helpers.map Pattern.defined).map Pattern.lines).map joinLines).drop
      14) = helpers.map fun f => (Pattern.defined f).text := rfl
  have hmentions : (helpers.map fun f => (Pattern.named f).text) ++
      (asides.map fun a => (Pattern.aside a).text) = mentions.map Pattern.text := by
    rw [mentions, List.map_append, List.map_map, List.map_map]
    rfl
  simp only [List.map_cons, namesSound] at h
  rw [hnamed, haside, hdefined, hmentions] at h
  simp only [Bool.and_eq_true, List.all_eq_true, List.forall_mem_map, and_assoc,
    beq_iff_eq, bne_iff_ne,
    Bool.not_eq_true', List.isEmpty_eq_false_iff, List.map_map] at h
  exact h

theorem pairwise_of_noneAgree {xs : List Text} (h : noneAgree xs = true) :
    xs.Pairwise fun x y => agree x y = false := by
  induction xs with
  | nil => exact List.Pairwise.nil
  | cons x xs ih =>
    rw [noneAgree, Bool.and_eq_true, List.all_eq_true] at h
    refine List.pairwise_cons.mpr ⟨fun y hy => ?_, ih h.2⟩
    simpa using h.1 y hy

/-- A mention is a name and a letter that is not of it. -/
theorem exists_name {p : Pattern} (hp : p ∈ mentions) :
    ∃ name stop, p.text = Pattern.anyName.text ++ (name ++ [stop]) ∧
      (∀ c ∈ name, isNameChar c = true) ∧ isNameChar stop = false ∧ p.text.getLastD '_' = stop := by
  have h := names_sound.1 p hp
  rw [splitsName, Bool.and_eq_true, Bool.and_eq_true, beq_iff_eq, List.all_eq_true,
    Bool.not_eq_true'] at h
  obtain ⟨⟨htext, hname⟩, hstop⟩ := h
  exact ⟨_, _, htext, hname, hstop, rfl⟩

theorem mem_helpers (f : Helper) : f ∈ helpers := by cases f <;> decide

theorem text_defined (f : Helper) :
    (Pattern.defined f).text = joinLines ["def "] ++ (Pattern.named f).text :=
  List.map_inj_left.mp names_sound.2.2.2.2.2 f (mem_helpers f)

/-- Every helper has a name. -/
theorem exists_callOf (f : Helper) :
    ∃ name, (∀ c ∈ name, isNameChar c = true) ∧ (Pattern.named f).text = callOf name := by
  obtain ⟨name, stop, htext, hname, -, hlast⟩ :=
    exists_name (List.mem_append_left _ (List.mem_map_of_mem (mem_helpers f)) :
      Pattern.named f ∈ mentions)
  have hbracket := names_sound.2.2.1 f (mem_helpers f)
  rw [hbracket] at hlast
  exact ⟨name, hname, by rw [htext, ← hlast, callOf]⟩

/-- A call that agrees with a mention is that of a helper. -/
theorem named_of_agree {p : Pattern} (hp : p ∈ mentions) {name : Text}
    (hname : ∀ c ∈ name, isNameChar c = true) (h : agree p.text (callOf name) = true) :
    ∃ f, (Pattern.named f).text = callOf name := by
  obtain ⟨-, -, -, haside, -⟩ := names_sound
  obtain ⟨name', stop, htext, hname', hstop, hlast⟩ := exists_name hp
  rw [htext, callOf, agree_append_left] at h
  obtain ⟨rfl, rfl⟩ := eq_of_agree_of_stop hname' hname hstop (by decide) h
  rcases List.mem_append.mp hp with hp | hp
  · obtain ⟨f, -, rfl⟩ := List.mem_map.mp hp
    exact ⟨f, htext⟩
  · obtain ⟨a, ha, rfl⟩ := List.mem_map.mp hp
    exact absurd hlast (haside a ha)

/-! ### Orders -/

/-- The orders of the overlays. -/
def orders : List (List Patcher) :=
  [[.hybrid], [.perGroup], [.fineGrained], [.hybrid, .perGroup], [.hybrid, .fineGrained],
    [.perGroup, .hybrid], [.perGroup, .fineGrained], [.fineGrained, .hybrid],
    [.fineGrained, .perGroup],
    [.hybrid, .perGroup, .fineGrained], [.hybrid, .fineGrained, .perGroup],
    [.perGroup, .hybrid, .fineGrained], [.perGroup, .fineGrained, .hybrid],
    [.fineGrained, .hybrid, .perGroup], [.fineGrained, .perGroup, .hybrid]]

theorem mem_orders {order : List Patcher} (hne : order ≠ []) (hnodup : order.Nodup) :
    order ∈ orders := by
  rcases order with _ | ⟨a, _ | ⟨b, _ | ⟨c, _ | ⟨d, os⟩⟩⟩⟩
  · exact absurd rfl hne
  · cases a <;> decide
  · cases a <;> cases b <;> simp_all [orders]
  · cases a <;> cases b <;> cases c <;> simp_all [orders]
  · cases a <;> cases b <;> cases c <;> cases d <;> simp_all

/-- The mentions that the overlays add are all the names that they add. -/
theorem expected_mentions : ∀ order ∈ orders,
    mentions.foldr (fun p n => expected order p + n) 0 = expected order .anyName := by
  decide

/-- In a good order a helper that is named is defined once. -/
theorem expected_defined : ∀ order ∈ orders, goodOrder order = true → ∀ f ∈ helpers,
    0 < expected order (.named f) → expected order (.defined f) = 1 := by
  decide

/-- In the other orders a helper is called that nothing defines. -/
theorem expected_isDraftSwaSpec : ∀ order ∈ orders, goodOrder order = false →
    0 < expected order (.named .isDraftSwaSpec) ∧
      expected order (.defined .isDraftSwaSpec) = 0 := by
  decide

/-- The mentions account for all names. -/
theorem After.occAll_mentions {order : List Patcher} {s : Text} (h : After order s)
    (horder : order ∈ orders) : occAll (mentions.map Pattern.text) s =
      occ Pattern.anyName.text s := by
  have hcount : ∀ ps : List Pattern, (∀ p ∈ ps, ∀ o, p ≠ .mark o) →
      occAll (ps.map Pattern.text) s = ps.foldr (fun p n => expected order p + n) 0 := by
    intro ps hps
    induction ps with
    | nil => rfl
    | cons p ps ih =>
      rw [List.map_cons, occAll, List.foldr_cons, ← occAll, List.foldr_cons,
        ih fun p hp => hps p (List.mem_cons_of_mem _ hp),
        h.counts p fun o _ => hps p List.mem_cons_self o]
  have hmarks : ∀ p ∈ mentions, ∀ o, p ≠ .mark o := by
    rintro p hp o rfl
    simp [mentions] at hp
  rw [hcount mentions hmarks, expected_mentions order horder,
    h.counts .anyName fun _ _ => Pattern.noConfusion]

/-- **When every helper that is called is defined once**: in the good orders. -/
theorem After.wired_iff {order : List Patcher} {s : Text} (h : After order s)
    (horder : order ∈ orders) : Wired s ↔ goodOrder order = true := by
  obtain ⟨-, hagree, -, -, hne, -⟩ := names_sound
  constructor
  · intro hwired
    by_contra hbad
    rw [Bool.not_eq_true] at hbad
    obtain ⟨hnamed, hdefined⟩ := expected_isDraftSwaSpec order horder hbad
    obtain ⟨name, hname, htext⟩ := exists_callOf .isDraftSwaSpec
    have hcall : callOf name <:+: s := by
      rw [← htext, ← occ_pos_iff (by simp [htext, callOf]), h.counts _ fun _ _ =>
        Pattern.noConfusion]
      exact hnamed
    have honce := hwired name hname hcall
    rw [defOf, ← htext, ← text_defined, h.counts _ fun _ _ => Pattern.noConfusion, hdefined]
      at honce
    exact Nat.zero_ne_one honce
  · intro hgood name hname hcall
    have hbegins : ∀ x ∈ mentions.map Pattern.text, Pattern.anyName.text <+: x := by
      rw [List.forall_mem_map]
      intro p hp
      obtain ⟨name, stop, htext, -⟩ := exists_name hp
      rw [htext]
      exact List.prefix_append _ _
    obtain ⟨x, hx, hxy⟩ := exists_agree hne hbegins (pairwise_of_noneAgree hagree)
      (h.occAll_mentions horder) (List.prefix_append _ _) hcall
    obtain ⟨p, hp, rfl⟩ := List.mem_map.mp hx
    obtain ⟨f, hf⟩ := named_of_agree hp hname hxy
    have hpos : 0 < occ (Pattern.named f).text s := by
      rw [hf]
      exact (occ_pos_iff (by simp [callOf])).mpr hcall
    rw [h.counts _ fun _ _ => Pattern.noConfusion] at hpos
    rw [defOf, ← hf, ← text_defined, h.counts _ fun _ _ => Pattern.noConfusion]
    exact expected_defined order horder hgood f (mem_helpers f) hpos

/-! ### From a pristine file -/

/-- What begins with a text that does not occur does not occur. -/
theorem Pristine.occ_eq_zero {t x : Text} (h : Pristine t) (hx : Pattern.anyName.text <:+: x) :
    occ x t = 0 := by
  obtain ⟨-, -, -, -, hne, -⟩ := names_sound
  have hname := h.names
  rw [isIn_eq_false_iff, occ_eq_zero_iff hne] at hname
  have hxne : x ≠ [] := by
    rintro rfl
    exact hne (List.infix_nil.mp hx)
  exact (occ_eq_zero_iff hxne).mpr fun hin => hname (hx.trans hin)

theorem anyName_within {p : Pattern} (hp : p ∈ mentions) : Pattern.anyName.text <:+: p.text := by
  obtain ⟨name, stop, htext, -⟩ := exists_name hp
  rw [htext]
  exact (List.prefix_append _ _).isInfix

/-- Nothing is installed in a pristine file. -/
theorem Pristine.after {t : Text} (h : Pristine t) : After [] t := by
  refine ⟨fun p _ => ?_, fun _ => h.once _ List.mem_cons_self, fun _ o ho => by cases ho⟩
  have hnamed : ∀ f, Pattern.anyName.text <:+: (Pattern.named f).text := fun f =>
    anyName_within (List.mem_append_left _ (List.mem_map_of_mem (mem_helpers f)))
  cases p with
  | named f => exact h.occ_eq_zero (hnamed f)
  | defined f =>
    rw [text_defined]
    exact h.occ_eq_zero ((hnamed f).trans (List.suffix_append _ _).isInfix)
  | aside a =>
    have ha : a ∈ asides := by cases a <;> decide
    exact h.occ_eq_zero (anyName_within (List.mem_append_right _ (List.mem_map_of_mem ha)))
  | anyName => exact h.occ_eq_zero List.infix_rfl
  | mark o =>
    have hmark := h.marks o
    rw [isIn_eq_false_iff.mp hmark, expected]

/-- The marks are in what the overlays put. -/
def marksWithin : List Text → Bool
  | [hybridMark, minNew, perGroupMark, initNew] =>
    !hybridMark.isEmpty && isIn hybridMark minNew && !perGroupMark.isEmpty &&
      isIn perGroupMark initNew
  | _ => false

set_option maxRecDepth 20000 in
theorem marksWithin_texts :
    marksWithin (([HybridPrefixHit.markLines, HybridPrefixHit.minNew, PerGroupRetention.markLines,
      PerGroupRetention.initNew] : List (List String)).map joinLines) = true := by
  apply check_of_spelled marksWithin
  · unfold HybridPrefixHit.markLines HybridPrefixHit.minNew PerGroupRetention.markLines
      PerGroupRetention.initNew
    repeat (first
      | exact SpelledAll.nil | apply SpelledAll.cons | exact Spelled.nil | apply Spelled.cons)
  · decide +kernel

/-- A complete file is left alone. -/
theorem unchanged_of_complete {parses : Text → Bool} {o : Patcher} {t : Text} (h : o.Complete t) :
    Unchanged parses o t := by
  have hmarks := marksWithin_texts
  simp only [List.map_cons, List.map_nil, marksWithin, Bool.and_eq_true, and_assoc,
    Bool.not_eq_true',
    List.isEmpty_eq_false_iff] at hmarks
  obtain ⟨hhybrid, hmin, hperGroup, hinit⟩ := hmarks
  have hsame : o.run parses t = some t ∨ o = .fineGrained ∧
      o.run parses t = FineGrainedApc.parsed parses t := by
    cases o with
    | hybrid => exact .inl (if_pos ((isIn_iff hhybrid).mpr ((infix_of_isIn hmin).trans h.min)))
    | perGroup =>
      exact .inl (if_pos ((isIn_iff hperGroup).mpr ((infix_of_isIn hinit).trans h.init)))
    | fineGrained => exact .inr ⟨rfl, FineGrainedApc.patchFile_complete h⟩
  rcases hsame with hsame | ⟨-, hsame⟩
  · exact ⟨fun t' ht' => (Option.some.inj (hsame.symm.trans ht')).symm, fun _ => hsame⟩
  · refine ⟨fun t' ht' => ?_, fun hparses => ?_⟩
    · rw [hsame] at ht'
      exact (FineGrainedApc.parsed_eq_some.mp ht').2.symm
    · rw [hsame]
      exact FineGrainedApc.parsed_eq_some.mpr ⟨hparses, rfl⟩

/-- **When the overlays compose**: every helper is defined once, every overlay is complete, and
another run changes nothing, exactly in the good orders. -/
theorem composed_iff {parses : Text → Bool} {order : List Patcher} {t t' : Text} (ht : Pristine t)
    (hne : order ≠ []) (hnodup : order.Nodup) (hruns : runs parses order t = some t') :
    (Wired t' ∧ ∀ o ∈ order, o.Complete t' ∧ Unchanged parses o t') ↔ goodOrder order = true := by
  have hafter : After order t' := after_runs ht.after hnodup hruns
  rw [hafter.wired_iff (mem_orders hne hnodup)]
  refine ⟨And.left, fun hgood => ⟨hgood, fun o ho => ?_⟩⟩
  have hcomplete := hafter.complete hgood o ho
  exact ⟨hcomplete, unchanged_of_complete hcomplete⟩

end Glm53Serve.Overlay.Composition
