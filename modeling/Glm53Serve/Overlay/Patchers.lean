import Glm53Serve.Overlay.FineGrainedApc
import Glm53Serve.Overlay.PerGroupRetention

/-!
# The patchers of the coordinator

Three overlays patch `kv_cache_coordinator.py`: the hybrid prefix hit, the per-group retention and
the fine-grained prefix cache.

## The model

A patcher is a run of one of them on the text of the file, the per-group retention with its switch
on. It inserts its import and its helper, unless there is one of that name, and then makes the edits
of its core.

## What is proved

* `run_patches` — the edits of a run.
* `gains_sound` — how many calls and definitions of the helpers each edit adds.
* `kept_sound` — the edits of one patcher keep the snippets of the others.
-/

namespace Glm53Serve.Overlay.Composition

open Py Occurrences

/-- The overlays of the coordinator. -/
inductive Patcher where
  | hybrid
  | perGroup
  | fineGrained
  deriving DecidableEq

namespace Patcher

/-- A run: the text that it leaves if it succeeds. -/
def run (parses : Text → Bool) : Patcher → Text → Option Text
  | hybrid, t => HybridPrefixHit.main (some t)
  | perGroup, t => PerGroupRetention.patch t
  | fineGrained, t => FineGrainedApc.patchFile parses t

/-- The lines of the mark. -/
def markLines : Patcher → List String
  | hybrid => HybridPrefixHit.markLines
  | perGroup => PerGroupRetention.markLines
  | fineGrained => FineGrainedApc.markerLines

/-- The edit that inserts the helper. -/
def helperEdit : Patcher → Edit Char
  | hybrid => HybridPrefixHit.helperEdit
  | perGroup => HybridPrefixHit.helperEdit
  | fineGrained => FineGrainedApc.helperEdit

/-- The edit that inserts the import. -/
def importEdits : Patcher → List (Edit Char)
  | perGroup => [PerGroupRetention.importEdit]
  | _ => []

/-- The other edits. -/
def core : Patcher → List (Edit Char)
  | hybrid => [HybridPrefixHit.eagleEdit, HybridPrefixHit.minEdit, HybridPrefixHit.logEdit]
  | perGroup => PerGroupRetention.retentionEdit :: PerGroupRetention.blockEdits
  | fineGrained => [FineGrainedApc.vetoEdit, FineGrainedApc.diagEdit]

/-- What a complete file holds of the overlay, the import in one of two forms. -/
def parts : Patcher → List (List String)
  | hybrid => [HybridPrefixHit.helperCode, HybridPrefixHit.eagleNew, HybridPrefixHit.minNew,
      HybridPrefixHit.logNew]
  | perGroup => [PerGroupRetention.importNew, PerGroupRetention.importOs,
      HybridPrefixHit.helperCode,
      PerGroupRetention.retentionHelper, PerGroupRetention.initNew, PerGroupRetention.baseCacheNew,
      PerGroupRetention.hybridLoopNew, PerGroupRetention.hybridCacheNew]
  | fineGrained => [HybridPrefixHit.innerKvSpec, FineGrainedApc.vetoNew, FineGrainedApc.diagNew]

/-- Every snippet of the overlay is in the text. -/
def Complete : Patcher → Text → Prop
  | hybrid => HybridPrefixHit.Complete
  | perGroup => PerGroupRetention.Complete
  | fineGrained => FineGrainedApc.Complete

end Patcher

/-! ### What is counted -/

/-- The helpers that the overlays bring. -/
inductive Helper where
  | innerKvSpec
  | isDraftSwaSpec
  | swaRetentionEnv
  | minExemptGroupIds
  | retentionForGroup
  | resolveRetentionByGroup
  | validateRetentionIntervals
  | formatRetentionVector
  deriving DecidableEq

def Helper.callLine : Helper → String
  | innerKvSpec => "_glm53_inner_kv_spec("
  | isDraftSwaSpec => "_glm53_is_draft_swa_spec("
  | swaRetentionEnv => "_glm53_swa_retention_env("
  | minExemptGroupIds => "_glm53_min_exempt_group_ids("
  | retentionForGroup => "_glm53_retention_for_group("
  | resolveRetentionByGroup => "_glm53_resolve_retention_by_group("
  | validateRetentionIntervals => "_glm53_validate_retention_intervals("
  | formatRetentionVector => "_glm53_format_retention_vector("

def Helper.defLine : Helper → String
  | innerKvSpec => "def _glm53_inner_kv_spec("
  | isDraftSwaSpec => "def _glm53_is_draft_swa_spec("
  | swaRetentionEnv => "def _glm53_swa_retention_env("
  | minExemptGroupIds => "def _glm53_min_exempt_group_ids("
  | retentionForGroup => "def _glm53_retention_for_group("
  | resolveRetentionByGroup => "def _glm53_resolve_retention_by_group("
  | validateRetentionIntervals => "def _glm53_validate_retention_intervals("
  | formatRetentionVector => "def _glm53_format_retention_vector("

/-- The other names that the overlays bring, and the helpers that their comments quote. -/
inductive Aside where
  | swaInterval
  | swaIntervalArg
  | minExempt
  | minExemptArg
  | minExemptGroupIds
  | swaRetentionEnv
  deriving DecidableEq

def Aside.line : Aside → String
  | swaInterval => "_glm53_swa_interval "
  | swaIntervalArg => "_glm53_swa_interval,"
  | minExempt => "_glm53_min_exempt "
  | minExemptArg => "_glm53_min_exempt)"
  | minExemptGroupIds => "_glm53_min_exempt_group_ids`"
  | swaRetentionEnv => "_glm53_swa_retention_env`"

/-- What is counted: where a helper is called or defined, where it is defined, the other names, what
all names begin with, and the marks. -/
inductive Pattern where
  | named (h : Helper)
  | defined (h : Helper)
  | aside (a : Aside)
  | anyName
  | mark (o : Patcher)
  deriving DecidableEq

namespace Pattern

def lines : Pattern → List String
  | named h => [h.callLine]
  | defined h => [h.defLine]
  | aside a => [a.line]
  | anyName => ["_glm53_"]
  | mark o => o.markLines

def text (p : Pattern) : Text := joinLines p.lines

end Pattern

/-- How often the helper of the overlay has the pattern. -/
def helperGain : Patcher → Pattern → ℕ
  | .fineGrained, .named .innerKvSpec => 1
  | .fineGrained, .anyName => 1
  | _, .named .innerKvSpec => 2
  | _, .defined .innerKvSpec => 1
  | .fineGrained, _ => 0
  | _, .named .isDraftSwaSpec => 1
  | _, .defined .isDraftSwaSpec => 1
  | _, .anyName => 3
  | _, _ => 0

/-- How often the core of the overlay adds the pattern. -/
def coreGain : Patcher → Pattern → ℕ
  | .hybrid, .named .innerKvSpec => 1
  | .hybrid, .named .isDraftSwaSpec => 2
  | .hybrid, .anyName => 3
  | .perGroup, .named .innerKvSpec => 1
  | .perGroup, .named .minExemptGroupIds => 3
  | .perGroup, .named _ => 2
  | .perGroup, .defined .innerKvSpec => 0
  | .perGroup, .defined .isDraftSwaSpec => 0
  | .perGroup, .defined _ => 1
  | .perGroup, .aside .swaIntervalArg => 2
  | .perGroup, .aside _ => 1
  | .perGroup, .anyName => 23
  | _, _ => 0

def helpers : List Helper :=
  [.innerKvSpec, .isDraftSwaSpec, .swaRetentionEnv, .minExemptGroupIds, .retentionForGroup,
    .resolveRetentionByGroup, .validateRetentionIntervals, .formatRetentionVector]

def asides : List Aside :=
  [.swaInterval, .swaIntervalArg, .minExempt, .minExemptArg, .minExemptGroupIds, .swaRetentionEnv]

/-- Every name that the overlays bring, with the letter behind it. -/
def mentions : List Pattern := helpers.map .named ++ asides.map .aside

/-- The patterns but the mark of the overlay itself. -/
def patterns (o : Patcher) : List Pattern :=
  mentions ++ helpers.map .defined ++ .anyName ::
    match o with
    | .hybrid => [.mark .perGroup, .mark .fineGrained]
    | .perGroup => [.mark .hybrid, .mark .fineGrained]
    | .fineGrained => [.mark .hybrid, .mark .perGroup]

theorem mem_patterns {o : Patcher} {p : Pattern} (h : p ≠ .mark o) : p ∈ patterns o := by
  cases p with
  | named f => cases f <;> simp [patterns, mentions, helpers]
  | defined f => cases f <;> simp [patterns, mentions, helpers]
  | aside a => cases a <;> simp [patterns, mentions, asides]
  | anyName => simp [patterns]
  | mark o' => cases o <;> cases o' <;> first | exact absurd rfl h | simp [patterns]

/-- Each of the edits together adds its number of each text. -/
def gainsSound (xs : List Text) (ns : List ℕ) (es : List (Edit Char)) : Bool :=
  (xs.zip ns).all fun xn => Edit.addsAll xn.1 xn.2 es

theorem gainsSound_patterns {ps : List Pattern} {g : Pattern → ℕ} {es : List (Edit Char)}
    (h : gainsSound ((ps.map Pattern.lines).map joinLines) (ps.map g) es = true) :
    ∀ p ∈ ps, Edit.addsAll p.text (g p) es = true := by
  rw [gainsSound, List.map_map, List.zip_map', List.all_map, List.all_eq_true] at h
  exact h

/-- Edits that replace the first of two texts by the second. -/
def betweens : List Text → List (Edit Char)
  | old :: new :: ts => Edit.between old new :: betweens ts
  | _ => []

/-- The texts of the core of the hybrid prefix hit. -/
def hybridTexts : List (List String) :=
  [HybridPrefixHit.eagleOld, HybridPrefixHit.eagleNew, HybridPrefixHit.minOld,
    HybridPrefixHit.minNew,
    HybridPrefixHit.logOld, HybridPrefixHit.logNew]

/-- The texts of the blocks of the per-group retention. -/
def blockTexts : List (List String) :=
  [PerGroupRetention.initOld, PerGroupRetention.initNew, PerGroupRetention.baseCacheOld,
    PerGroupRetention.baseCacheNew, PerGroupRetention.hybridLoopOld,
    PerGroupRetention.hybridLoopNew,
    PerGroupRetention.hybridCacheOld, PerGroupRetention.hybridCacheNew]

/-- The texts of the core of the fine-grained prefix cache. -/
def fineTexts : List (List String) :=
  [FineGrainedApc.vetoOld, FineGrainedApc.vetoNew, FineGrainedApc.diagOld, FineGrainedApc.diagNew]

/-- The counts of the hybrid prefix hit. -/
def hybridGains : List Text → Bool
  | needle :: helper :: eagleOld :: eagleNew :: minOld :: minNew :: logOld :: logNew :: xs =>
    gainsSound xs ((patterns .hybrid).map (helperGain .hybrid))
        [Edit.between needle (helper ++ needle)] &&
      gainsSound xs ((patterns .hybrid).map (coreGain .hybrid))
        (betweens [eagleOld, eagleNew, minOld, minNew, logOld, logNew])
  | _ => false

/-- The counts of the per-group retention. -/
def perGroupGains : List Text → Bool
  | needle :: helper :: retentionHelper :: importOld :: importNew :: initOld :: initNew ::
      baseCacheOld ::
      baseCacheNew :: hybridLoopOld :: hybridLoopNew :: hybridCacheOld :: hybridCacheNew :: xs =>
    gainsSound xs ((patterns .perGroup).map (helperGain .perGroup))
        [Edit.between needle (helper ++ needle)] &&
      gainsSound xs ((patterns .perGroup).map (coreGain .perGroup))
        (Edit.between needle (retentionHelper ++ needle) ::
          betweens [initOld, initNew, baseCacheOld,
          baseCacheNew, hybridLoopOld, hybridLoopNew, hybridCacheOld, hybridCacheNew]) &&
      gainsSound xs ((patterns .perGroup).map fun _ => 0) [Edit.between importOld importNew]
  | _ => false

/-- The counts of the fine-grained prefix cache. -/
def fineGrainedGains : List Text → Bool
  | needle :: helper :: vetoOld :: vetoNew :: diagOld :: diagNew :: xs =>
    gainsSound xs ((patterns .fineGrained).map (helperGain .fineGrained))
        [Edit.between needle (helper ++ needle)] &&
      gainsSound xs ((patterns .fineGrained).map (coreGain .fineGrained))
        (betweens [vetoOld, vetoNew, diagOld, diagNew])
  | _ => false

set_option maxRecDepth 40000 in
theorem hybridGains_texts :
    hybridGains ((HybridPrefixHit.needle :: HybridPrefixHit.helper :: hybridTexts ++
      (patterns .hybrid).map Pattern.lines).map joinLines) = true := by
  apply check_of_spelled hybridGains
  · unfold hybridTexts HybridPrefixHit.needle HybridPrefixHit.helper HybridPrefixHit.helperCode
      HybridPrefixHit.innerKvSpec HybridPrefixHit.isDraftSwaSpec
      HybridPrefixHit.eagleOld HybridPrefixHit.eagleNew HybridPrefixHit.minOld
      HybridPrefixHit.minNew HybridPrefixHit.logOld HybridPrefixHit.logNew
    simp only [patterns, mentions, helpers, asides, List.map_cons, List.map_nil, Pattern.lines,
      Helper.callLine, Helper.defLine, Aside.line, Patcher.markLines, PerGroupRetention.markLines,
      FineGrainedApc.markerLines,
      List.cons_append, List.nil_append]
    repeat (first
      | exact SpelledAll.nil | apply SpelledAll.cons | exact Spelled.nil | apply Spelled.cons)
  · decide +kernel

set_option maxRecDepth 40000 in
theorem perGroupGains_texts :
    perGroupGains ((HybridPrefixHit.needle :: HybridPrefixHit.helper ::
      PerGroupRetention.retentionHelper :: PerGroupRetention.importOld ::
        PerGroupRetention.importNew ::
      blockTexts ++ (patterns .perGroup).map Pattern.lines).map joinLines) = true := by
  apply check_of_spelled perGroupGains
  · unfold blockTexts HybridPrefixHit.needle HybridPrefixHit.helper HybridPrefixHit.helperCode
      HybridPrefixHit.innerKvSpec HybridPrefixHit.isDraftSwaSpec
      PerGroupRetention.importOld PerGroupRetention.importNew PerGroupRetention.retentionHelper
      PerGroupRetention.swaRetentionEnv PerGroupRetention.minExemptGroupIds
      PerGroupRetention.retentionForGroup PerGroupRetention.resolveRetentionByGroup
      PerGroupRetention.validateRetentionIntervals PerGroupRetention.formatRetentionVector
      PerGroupRetention.initOld PerGroupRetention.initNew PerGroupRetention.baseCacheOld
      PerGroupRetention.baseCacheNew PerGroupRetention.hybridLoopOld PerGroupRetention.hybridLoopNew
      PerGroupRetention.hybridCacheOld PerGroupRetention.hybridCacheNew
    simp only [patterns, mentions, helpers, asides, List.map_cons, List.map_nil, Pattern.lines,
      Helper.callLine, Helper.defLine, Aside.line, Patcher.markLines, HybridPrefixHit.markLines,
      FineGrainedApc.markerLines,
      List.cons_append, List.nil_append]
    repeat (first
      | exact SpelledAll.nil | apply SpelledAll.cons | exact Spelled.nil | apply Spelled.cons)
  · decide +kernel

set_option maxRecDepth 40000 in
theorem fineGrainedGains_texts :
    fineGrainedGains ((HybridPrefixHit.needle :: FineGrainedApc.helper :: fineTexts ++
      (patterns .fineGrained).map Pattern.lines).map joinLines) = true := by
  apply check_of_spelled fineGrainedGains
  · unfold fineTexts HybridPrefixHit.needle FineGrainedApc.helper HybridPrefixHit.innerKvSpec
      FineGrainedApc.vetoOld FineGrainedApc.vetoNew FineGrainedApc.diagOld FineGrainedApc.diagNew
    simp only [patterns, mentions, helpers, asides, List.map_cons, List.map_nil, Pattern.lines,
      Helper.callLine, Helper.defLine, Aside.line, Patcher.markLines, HybridPrefixHit.markLines,
      PerGroupRetention.markLines,
      List.cons_append, List.nil_append]
    repeat (first
      | exact SpelledAll.nil | apply SpelledAll.cons | exact Spelled.nil | apply Spelled.cons)
  · decide +kernel

/-- What the edits of the overlay add of the patterns. -/
theorem gains_sound (o : Patcher) {p : Pattern} (hp : p ≠ .mark o) :
    Edit.addsAll p.text (helperGain o p) [o.helperEdit] = true ∧
      Edit.addsAll p.text (coreGain o p) o.core = true ∧
      Edit.addsAll p.text 0 o.importEdits = true := by
  have hmem := mem_patterns hp
  cases o with
  | hybrid =>
    have h := hybridGains_texts
    rw [List.map_append] at h
    simp only [hybridTexts, List.map_cons, List.map_nil, List.cons_append, List.nil_append,
      hybridGains, Bool.and_eq_true] at h
    exact ⟨gainsSound_patterns h.1 p hmem, gainsSound_patterns h.2 p hmem, rfl⟩
  | perGroup =>
    have h := perGroupGains_texts
    rw [List.map_append] at h
    simp only [blockTexts, List.map_cons, List.map_nil, List.cons_append, List.nil_append,
      perGroupGains, Bool.and_eq_true] at h
    obtain ⟨⟨hhelper, hcore⟩, himport⟩ := h
    exact ⟨gainsSound_patterns hhelper p hmem, gainsSound_patterns hcore p hmem,
      gainsSound_patterns himport p hmem⟩
  | fineGrained =>
    have h := fineGrainedGains_texts
    rw [List.map_append] at h
    simp only [fineTexts, List.map_cons, List.map_nil, List.cons_append, List.nil_append,
      fineGrainedGains, Bool.and_eq_true] at h
    exact ⟨gainsSound_patterns h.1 p hmem, gainsSound_patterns h.2 p hmem, rfl⟩

/-! ### What is kept -/

/-- The edits keep the texts. -/
def keptBy (xs : List Text) (es : List (Edit Char)) : Bool := xs.all fun x => es.all (Edit.keeps x)

/-- The edits of the per-group retention, of its texts and then those of replacements. -/
def retentionEdits : List Text → List (Edit Char)
  | needle :: retentionHelper :: ts =>
    Edit.between needle (retentionHelper ++ needle) :: betweens ts
  | _ => []

/-- The texts for `retentionEdits`. -/
def retentionTexts : List (List String) :=
  HybridPrefixHit.needle :: PerGroupRetention.retentionHelper :: PerGroupRetention.importOld ::
    PerGroupRetention.importNew :: blockTexts

set_option maxRecDepth 40000 in
theorem hybridKept_texts :
    (fun ts => keptBy (ts.take 4) (retentionEdits (ts.drop 4)))
      ((Patcher.hybrid.parts ++ (retentionTexts ++ fineTexts)).map joinLines) = true := by
  apply check_of_spelled fun ts => keptBy (ts.take 4) (retentionEdits (ts.drop 4))
  · simp only [Patcher.parts]
    unfold retentionTexts blockTexts fineTexts HybridPrefixHit.needle HybridPrefixHit.helperCode
      HybridPrefixHit.innerKvSpec HybridPrefixHit.isDraftSwaSpec HybridPrefixHit.eagleNew
      HybridPrefixHit.minNew HybridPrefixHit.logNew PerGroupRetention.retentionHelper
      PerGroupRetention.swaRetentionEnv PerGroupRetention.minExemptGroupIds
      PerGroupRetention.retentionForGroup PerGroupRetention.resolveRetentionByGroup
      PerGroupRetention.validateRetentionIntervals PerGroupRetention.formatRetentionVector
      PerGroupRetention.importOld PerGroupRetention.importNew PerGroupRetention.initOld
      PerGroupRetention.initNew PerGroupRetention.baseCacheOld PerGroupRetention.baseCacheNew
      PerGroupRetention.hybridLoopOld PerGroupRetention.hybridLoopNew
      PerGroupRetention.hybridCacheOld PerGroupRetention.hybridCacheNew FineGrainedApc.vetoOld
      FineGrainedApc.vetoNew FineGrainedApc.diagOld FineGrainedApc.diagNew
    simp only [List.cons_append, List.nil_append]
    repeat (first
      | exact SpelledAll.nil | apply SpelledAll.cons | exact Spelled.nil | apply Spelled.cons)
  · decide +kernel

set_option maxRecDepth 40000 in
theorem perGroupKept_texts :
    (fun ts => keptBy (ts.take 8) (betweens (ts.drop 8)))
      ((Patcher.perGroup.parts ++ (hybridTexts ++ fineTexts)).map joinLines) = true := by
  apply check_of_spelled fun ts => keptBy (ts.take 8) (betweens (ts.drop 8))
  · simp only [Patcher.parts]
    unfold hybridTexts fineTexts HybridPrefixHit.helperCode HybridPrefixHit.innerKvSpec
      HybridPrefixHit.isDraftSwaSpec HybridPrefixHit.eagleNew HybridPrefixHit.minNew
      HybridPrefixHit.logNew HybridPrefixHit.eagleOld HybridPrefixHit.minOld HybridPrefixHit.logOld
      PerGroupRetention.importNew PerGroupRetention.importOs PerGroupRetention.retentionHelper
      PerGroupRetention.swaRetentionEnv PerGroupRetention.minExemptGroupIds
      PerGroupRetention.retentionForGroup PerGroupRetention.resolveRetentionByGroup
      PerGroupRetention.validateRetentionIntervals PerGroupRetention.formatRetentionVector
      PerGroupRetention.initNew PerGroupRetention.baseCacheNew PerGroupRetention.hybridLoopNew
      PerGroupRetention.hybridCacheNew FineGrainedApc.vetoOld FineGrainedApc.vetoNew
      FineGrainedApc.diagOld FineGrainedApc.diagNew
    simp only [List.cons_append, List.nil_append]
    repeat (first
      | exact SpelledAll.nil | apply SpelledAll.cons | exact Spelled.nil | apply Spelled.cons)
  · decide +kernel

set_option maxRecDepth 40000 in
theorem fineGrainedKept_texts :
    (fun ts => keptBy (ts.take 3) (retentionEdits (ts.drop 3)))
      ((Patcher.fineGrained.parts ++ (retentionTexts ++ hybridTexts)).map joinLines) = true := by
  apply check_of_spelled fun ts => keptBy (ts.take 3) (retentionEdits (ts.drop 3))
  · simp only [Patcher.parts]
    unfold retentionTexts blockTexts hybridTexts HybridPrefixHit.needle HybridPrefixHit.innerKvSpec
      HybridPrefixHit.eagleNew HybridPrefixHit.minNew HybridPrefixHit.logNew
      HybridPrefixHit.eagleOld HybridPrefixHit.minOld HybridPrefixHit.logOld
      PerGroupRetention.retentionHelper PerGroupRetention.swaRetentionEnv
      PerGroupRetention.minExemptGroupIds PerGroupRetention.retentionForGroup
      PerGroupRetention.resolveRetentionByGroup PerGroupRetention.validateRetentionIntervals
      PerGroupRetention.formatRetentionVector PerGroupRetention.importOld
      PerGroupRetention.importNew PerGroupRetention.initOld PerGroupRetention.initNew
      PerGroupRetention.baseCacheOld PerGroupRetention.baseCacheNew PerGroupRetention.hybridLoopOld
      PerGroupRetention.hybridLoopNew PerGroupRetention.hybridCacheOld
      PerGroupRetention.hybridCacheNew FineGrainedApc.vetoNew FineGrainedApc.diagNew
    simp only [List.cons_append, List.nil_append]
    repeat (first
      | exact SpelledAll.nil | apply SpelledAll.cons | exact Spelled.nil | apply Spelled.cons)
  · decide +kernel

theorem keptBy_mono {xs : List Text} {es gs : List (Edit Char)} (h : keptBy xs es = true)
    (hsub : gs ⊆ es) : ∀ x ∈ xs, gs.all (Edit.keeps x) = true := by
  intro x hx
  rw [keptBy, List.all_eq_true] at h
  have hall := List.all_eq_true.mp (h x hx)
  exact List.all_eq_true.mpr fun e he => hall e (hsub he)

theorem keptBy_swap {xs : List Text} {e g : Edit Char} {es : List (Edit Char)}
    (h : keptBy xs (e :: g :: es) = true) : keptBy xs (g :: e :: es) = true := by
  refine List.all_eq_true.mpr fun x hx => ?_
  have hall := List.all_eq_true.mp h x hx
  rw [List.all_cons, List.all_cons, Bool.and_left_comm] at hall
  rw [List.all_cons, List.all_cons]
  exact hall

/-- All edits of an overlay but that of its helper. -/
def Patcher.edits (o : Patcher) : List (Edit Char) := o.importEdits ++ o.core

theorem hybridKept :
    keptBy (Patcher.hybrid.parts.map joinLines)
      (Patcher.perGroup.edits ++ Patcher.fineGrained.edits) = true := by
  have h := hybridKept_texts
  simp only [Patcher.parts, retentionTexts, blockTexts, fineTexts, List.map_cons, List.map_nil,
    List.cons_append, List.nil_append, List.take_succ_cons, List.take_zero, List.drop_succ_cons,
    List.drop_zero, retentionEdits, betweens] at h
  simp only [Patcher.edits, Patcher.importEdits, Patcher.core, PerGroupRetention.importEdit,
    PerGroupRetention.retentionEdit, PerGroupRetention.blockEdits, FineGrainedApc.vetoEdit,
    FineGrainedApc.diagEdit, List.cons_append, List.nil_append, Patcher.parts, List.map_cons,
    List.map_nil]
  exact keptBy_swap h

theorem perGroupKept :
    keptBy (Patcher.perGroup.parts.map joinLines)
      (Patcher.hybrid.edits ++ Patcher.fineGrained.edits) = true := by
  have h := perGroupKept_texts
  simp only [Patcher.parts, hybridTexts, fineTexts, List.map_cons, List.map_nil,
    List.cons_append, List.nil_append, List.take_succ_cons, List.take_zero, List.drop_succ_cons,
    List.drop_zero, betweens] at h
  simp only [Patcher.edits, Patcher.importEdits, Patcher.core, HybridPrefixHit.eagleEdit,
    HybridPrefixHit.minEdit, HybridPrefixHit.logEdit, FineGrainedApc.vetoEdit,
    FineGrainedApc.diagEdit, List.cons_append, List.nil_append, Patcher.parts, List.map_cons,
    List.map_nil]
  exact h

theorem fineGrainedKept :
    keptBy (Patcher.fineGrained.parts.map joinLines)
      (Patcher.perGroup.edits ++ Patcher.hybrid.edits) = true := by
  have h := fineGrainedKept_texts
  simp only [Patcher.parts, retentionTexts, blockTexts, hybridTexts, List.map_cons, List.map_nil,
    List.cons_append, List.nil_append, List.take_succ_cons, List.take_zero, List.drop_succ_cons,
    List.drop_zero, retentionEdits, betweens] at h
  simp only [Patcher.edits, Patcher.importEdits, Patcher.core, PerGroupRetention.importEdit,
    PerGroupRetention.retentionEdit, PerGroupRetention.blockEdits, HybridPrefixHit.eagleEdit,
    HybridPrefixHit.minEdit, HybridPrefixHit.logEdit, List.cons_append, List.nil_append,
    Patcher.parts, List.map_cons, List.map_nil]
  exact keptBy_swap h

/-- The edits of one overlay keep the parts of another. -/
theorem kept_sound {o o' : Patcher} (h : o ≠ o') :
    ∀ x ∈ o.parts, o'.edits.all (Edit.keeps (joinLines x)) = true := by
  intro x hx
  have hmem : joinLines x ∈ o.parts.map joinLines := List.mem_map_of_mem hx
  cases o with
  | hybrid =>
    cases o' with
    | hybrid => exact absurd rfl h
    | perGroup => exact keptBy_mono hybridKept (List.subset_append_left _ _) _ hmem
    | fineGrained => exact keptBy_mono hybridKept (List.subset_append_right _ _) _ hmem
  | perGroup =>
    cases o' with
    | hybrid => exact keptBy_mono perGroupKept (List.subset_append_left _ _) _ hmem
    | perGroup => exact absurd rfl h
    | fineGrained => exact keptBy_mono perGroupKept (List.subset_append_right _ _) _ hmem
  | fineGrained =>
    cases o' with
    | hybrid => exact keptBy_mono fineGrainedKept (List.subset_append_right _ _) _ hmem
    | perGroup => exact keptBy_mono fineGrainedKept (List.subset_append_left _ _) _ hmem
    | fineGrained => exact absurd rfl h

/-! ### A run -/

/-- The definition that a patcher looks for before it inserts its helper. -/
def guard : Text := (Pattern.defined .innerKvSpec).text

/-- The edits of a run on a text without the mark. -/
theorem run_patches {parses : Text → Bool} {o : Patcher} {t t' : Text}
    (hmark : isIn (Pattern.mark o).text t = false)
    (hneedle : isIn guard t = false → count t (joinLines HybridPrefixHit.needle) = 1)
    (h : o.run parses t = some t') :
    ∃ imp t₁ t₂, (imp = [] ∨ imp = o.importEdits) ∧ Edit.Patches imp t t₁ ∧
      Edit.Patches (if isIn guard t₁ then [] else [o.helperEdit]) t₁ t₂ ∧
      Edit.Patches o.core t₂ t' := by
  cases o with
  | hybrid =>
    obtain ⟨-, t₁, h₁, h₂⟩ := HybridPrefixHit.main_patches hmark h
    exact ⟨[], t, t₁, .inl rfl, Edit.Patches.nil t, h₁, h₂.patches⟩
  | perGroup =>
    obtain ⟨-, t₁, t₂, t₃, himport, h₂, hret, hblocks⟩ := PerGroupRetention.patch_patches hmark h
    refine ⟨_, t₁, t₂, ?_, himport.patches, h₂, hret.append hblocks.patches⟩
    cases isIn (joinLines PerGroupRetention.importOs) t with
    | true => exact .inl rfl
    | false => exact .inr rfl
  | fineGrained =>
    obtain ⟨t₁, h₁, h₂⟩ := FineGrainedApc.patchFile_patches hmark hneedle h
    exact ⟨[], t, t₁, .inl rfl, Edit.Patches.nil t, h₁, h₂⟩

end Glm53Serve.Overlay.Composition
