import Mathlib
import Glm53Serve.Lib.Settle

/-!
# The prefix hit of the hybrid coordinator

The coordinator looks for the longest cached prefix that every group of layers has. Its
groups lower the hit length in turn, pass after pass, until a pass leaves it as it is.
`overlay/patch_hybrid_prefix_hit.py` exempts the sliding window group of the drafter: it is
looked up at the hit length of the others and recorded if it covers it.

## The model

The lookups of a group are any function of the bound, and of whether the EAGLE block is
dropped. `visit` is the patched block; the loop around it is the coordinator's.

## What is proved

* `search_settles` — the search ends.
* `search_agreed` — the hit length of the other groups is found, and the drafter's last lookup
  that covers its bound is recorded.
* `drafter_fresh_iff` — when that was looked up at the hit length.
-/

namespace Glm53Serve.PrefixHit

open Settle

universe u

/-! ### The specs -/

/-- The class of a spec. -/
inductive SpecClass where
  | slidingWindowSpec
  | kpoolTailSpec
  | mlaAttentionSpec
  | mambaSpec
  | uniformTypeKVCacheSpecs
  /-- A class of another name. -/
  | other
  deriving DecidableEq

/-- A spec: its class, and those of its `kv_cache_specs`. -/
structure Spec where
  cls : SpecClass
  kvCacheSpecs : List SpecClass

/-- `_glm53_inner_kv_spec(spec)`. -/
def innerKvSpec (spec : Spec) : SpecClass := spec.kvCacheSpecs.head?.getD spec.cls

/-- `_glm53_is_draft_swa_spec(spec)`. -/
def isDraftSwaSpec (spec : Spec) : Bool := innerKvSpec spec = .slidingWindowSpec

/-! ### The search -/

/-- What a lookup returns: the blocks of each group id, and their length. -/
structure Hit (Block : Type u) where
  blocks : ℕ → List Block
  hitLength : ℕ

/-- An entry of `attention_groups`. -/
structure AttentionGroup (Block : Type u) where
  spec : Spec
  groupIds : List ℕ
  useEagle : Bool
  /-- The lookup, with or without `drop_eagle_block`, at a bound. -/
  lookup : Bool → ℕ → Hit Block
  lookup_le : ∀ dropEagleBlock bound, (lookup dropEagleBlock bound).hitLength ≤ bound

variable {Block : Type u}

/-- What the search changes. -/
structure Search (Block : Type u) where
  currHitLength : ℕ
  longestHitLength : ℕ
  /-- `hit_blocks_by_group` and `hit_length_by_group`. -/
  recorded : ℕ → Option (List Block × ℕ)
  eagleVerified : List ℕ

/-- The two assignments to the entries of a group. -/
def record (recorded : ℕ → Option (List Block × ℕ)) (group : AttentionGroup Block)
    (hit : Hit Block) :
    ℕ → Option (List Block × ℕ) :=
  fun groupId => if groupId ∈ group.groupIds then some (hit.blocks groupId, hit.hitLength)
    else recorded groupId

/-- The visit of a group. -/
def visit (s : Search Block) (group : AttentionGroup Block) (idx : ℕ) : Search Block :=
  let dropEagleBlock := group.useEagle && !s.eagleVerified.contains idx
  let hit := group.lookup dropEagleBlock s.currHitLength
  let eagleVerified :=
    if dropEagleBlock then idx :: s.eagleVerified
    else if hit.hitLength < s.currHitLength then [] else s.eagleVerified
  if isDraftSwaSpec group.spec then
    if s.currHitLength ≤ hit.hitLength then
      { s with recorded := record s.recorded group hit, eagleVerified := eagleVerified }
    else { s with eagleVerified := eagleVerified }
  else
    ⟨hit.hitLength, max s.longestHitLength hit.hitLength, record s.recorded group hit,
      eagleVerified⟩

/-- The visits of the groups from the index `idx` on. -/
def visitFrom (s : Search Block) (idx : ℕ) (groups : List (AttentionGroup Block)) : Search Block :=
  (groups.zipIdx idx).foldl (fun s p => visit s p.1 p.2) s

/-- A pass over the groups. -/
def pass (groups : List (AttentionGroup Block)) (s : Search Block) : Search Block :=
  visitFrom s 0 groups

/-- The search from a bound: passes until one leaves the hit length as it is. -/
def search (groups : List (AttentionGroup Block)) (maxLength : ℕ) : Search Block :=
  settle (pass groups) Search.currHitLength (maxLength + 1) ⟨maxLength, 0, fun _ => none, []⟩

theorem visit_le (s : Search Block) (group : AttentionGroup Block) (idx : ℕ) :
    (visit s group idx).currHitLength ≤ s.currHitLength := by
  unfold visit
  dsimp only
  by_cases hdraft : isDraftSwaSpec group.spec = true
  · rw [if_pos hdraft]
    split_ifs <;> exact le_rfl
  · rw [if_neg hdraft]
    exact group.lookup_le _ _

theorem pass_le (groups : List (AttentionGroup Block)) (s : Search Block) :
    (pass groups s).currHitLength ≤ s.currHitLength := by
  have hfrom : ∀ (entries : List (AttentionGroup Block × ℕ)) (s : Search Block),
      (entries.foldl (fun s p => visit s p.1 p.2) s).currHitLength ≤ s.currHitLength := by
    intro entries
    induction entries with
    | nil => exact fun _ => le_rfl
    | cons p entries ih => exact fun s => (ih _).trans (visit_le s p.1 p.2)
  exact hfrom _ s

/-- **The search ends** with a pass that leaves the hit length as it is. -/
theorem search_settles (groups : List (AttentionGroup Block)) (maxLength : ℕ) :
    ∃ s, search groups maxLength = pass groups s ∧
      (pass groups s).currHitLength = s.currHitLength := by
  obtain ⟨s, -, heq, hsettled⟩ := settle_rule (fun _ => True) (pass_le groups) (fun _ _ => trivial)
    (Nat.lt_succ_self maxLength) (s := ⟨maxLength, 0, fun _ => none, []⟩) trivial
  exact ⟨s, heq, hsettled⟩

/-! ### Groups with one drafter -/

/-- Groups of which one is the drafter's, the only one flagged for EAGLE. -/
structure Hybrid (Block : Type u) where
  before : List (AttentionGroup Block)
  drafter : AttentionGroup Block
  after : List (AttentionGroup Block)
  draft : isDraftSwaSpec drafter.spec = true
  flagged : drafter.useEagle = true
  groupIds_ne : drafter.groupIds ≠ []
  others_draft : ∀ group ∈ before ++ after, isDraftSwaSpec group.spec = false
  others_flagged : ∀ group ∈ before ++ after, group.useEagle = false
  others_groupIds : ∀ group ∈ before ++ after, ∀ groupId ∈
    group.groupIds, groupId ∉ drafter.groupIds

namespace Hybrid

variable (H : Hybrid Block)

/-- All the groups, in their order. -/
def groups : List (AttentionGroup Block) := H.before ++ H.drafter :: H.after

/-- The groups without the drafter's. -/
def others : List (AttentionGroup Block) := H.before ++ H.after

end Hybrid

/-- The hit length that groups leave, looked up in turn. -/
def descend (groups : List (AttentionGroup Block)) (bound : ℕ) : ℕ :=
  groups.foldl (fun bound group => (group.lookup false bound).hitLength) bound

/-- The bounds at which the drafter is looked up, as the other groups give them. -/
structure Lookups where
  hitLength : ℕ
  /-- The bound of the last lookup. -/
  last : Option ℕ
  /-- The lookups, each with whether the EAGLE block is dropped and the bound. -/
  made : List (Bool × ℕ)

/-- A pass over the other groups: the drafter is looked up between them, and the EAGLE block is
dropped unless the bound is the one of the last lookup. -/
def Hybrid.passOthers (H : Hybrid Block) (t : Lookups) : Lookups :=
  let bound := descend H.before t.hitLength
  ⟨descend H.after bound, some bound, t.made ++ [(decide (t.last ≠ some bound), bound)]⟩

/-- The search of the other groups. -/
def Hybrid.searchOthers (H : Hybrid Block) (maxLength : ℕ) : Lookups :=
  settle H.passOthers Lookups.hitLength (maxLength + 1) ⟨maxLength, none, []⟩

/-! ### The other groups -/

theorem descend_append (xs ys : List (AttentionGroup Block)) (bound : ℕ) :
    descend (xs ++ ys) bound = descend ys (descend xs bound) := List.foldl_append

theorem descend_le (groups : List (AttentionGroup Block)) :
    ∀ bound, descend groups bound ≤ bound := by
  induction groups with
  | nil => exact fun _ => le_rfl
  | cons group groups ih => exact fun bound => (ih _).trans (group.lookup_le false bound)

/-- Groups that are neither the drafter's nor flagged. -/
def Plain (groups : List (AttentionGroup Block)) : Prop :=
  ∀ group ∈ groups, isDraftSwaSpec group.spec = false ∧ group.useEagle = false

/-- The visit of a group that is not the drafter's. -/
theorem visit_plain {group : AttentionGroup Block} (hd : isDraftSwaSpec group.spec = false)
    (hf : group.useEagle = false) (s : Search Block) (idx : ℕ) :
    visit s group idx =
      let hit := group.lookup false s.currHitLength
      ⟨hit.hitLength, max s.longestHitLength hit.hitLength, record s.recorded group hit,
        if hit.hitLength < s.currHitLength then [] else s.eagleVerified⟩ := by
  simp [visit, hd, hf]

/-- What the visits of other groups do: they lower the hit length, keep the entries of the drafter,
and keep its verification as long as the hit length does not shrink. -/
structure Passed (groups : List (AttentionGroup Block)) (ids : List ℕ) (i : ℕ)
    (s s' : Search Block) :
    Prop where
  hit : s'.currHitLength = descend groups s.currHitLength
  recorded : ∀ groupId ∈ ids, s'.recorded groupId = s.recorded groupId
  verified : i ∈ s'.eagleVerified ↔
    i ∈ s.eagleVerified ∧ descend groups s.currHitLength = s.currHitLength

theorem visitFrom_plain (ids : List ℕ) {groups : List (AttentionGroup Block)} (hp : Plain groups)
    (hids : ∀ group ∈ groups, ∀ groupId ∈ group.groupIds, groupId ∉ ids) (i : ℕ) :
    ∀ (s : Search Block) (idx : ℕ), Passed groups ids i s (visitFrom s idx groups) := by
  induction groups with
  | nil => exact fun s _ => ⟨rfl, fun _ _ => rfl, (and_iff_left rfl).symm⟩
  | cons group groups ih =>
    intro s idx
    have hg := hp group (.head _)
    obtain ⟨h1, h2, h3⟩ := ih (fun g hg => hp g (.tail _ hg)) (fun g hg => hids g (.tail _ hg))
      (visit s group idx) (idx + 1)
    rw [show visitFrom s idx (group :: groups) = visitFrom (visit s group idx)
      (idx + 1) groups from rfl]
    rw [visit_plain hg.1 hg.2] at h1 h2 h3 ⊢
    refine ⟨h1, fun groupId hid => ?_, h3.trans ?_⟩
    · rw [h2 groupId hid]
      exact if_neg fun hmem => hids group (.head _) groupId hmem hid
    · have hle := group.lookup_le false s.currHitLength
      have hle' := descend_le groups (group.lookup false s.currHitLength).hitLength
      simp only [descend, List.foldl_cons] at hle' ⊢
      split_ifs with hlt
      · simp only [List.not_mem_nil, false_and, false_iff, not_and]
        intro _ heq
        omega
      · rw [show (group.lookup false s.currHitLength).hitLength = s.currHitLength by omega]

namespace Hybrid

variable (H : Hybrid Block)

theorem plain : Plain (H.before ++ H.after) :=
  fun group hg => ⟨H.others_draft group hg, H.others_flagged group hg⟩

theorem visitFrom_before (s : Search Block) : Passed H.before H.drafter.groupIds H.before.length s
    (visitFrom s 0 H.before) :=
  visitFrom_plain _ (fun g hg => H.plain g (List.mem_append_left _ hg))
    (fun g hg => H.others_groupIds g (List.mem_append_left _ hg)) _ s 0

theorem visitFrom_after (s : Search Block) : Passed H.after H.drafter.groupIds H.before.length s
    (visitFrom s (H.before.length + 1) H.after) :=
  visitFrom_plain _ (fun g hg => H.plain g (List.mem_append_right _ hg))
    (fun g hg => H.others_groupIds g (List.mem_append_right _ hg)) _ s _

theorem pass_groups (s : Search Block) : pass H.groups s =
    visitFrom (visit (visitFrom s 0 H.before) H.drafter H.before.length)
      (H.before.length + 1) H.after := by
  simp only [pass, groups, visitFrom, List.zipIdx_append, List.zipIdx_cons, List.foldl_append,
    List.foldl_cons, Nat.zero_add]

/-- A pass over the other groups does to the hit length what one over all of them does. -/
theorem pass_others_hit (s : Search Block) :
    (pass H.others s).currHitLength = descend H.after (descend H.before s.currHitLength) := by
  rw [pass, others, (visitFrom_plain [] H.plain (fun _ _ _ _ => List.not_mem_nil) 0 s 0).hit,
    descend_append]

theorem passOthers_le (t : Lookups) : (H.passOthers t).hitLength ≤ t.hitLength :=
  (descend_le _ _).trans (descend_le _ _)

/-- The search without the drafter. -/
theorem search_others_hit (maxLength : ℕ) :
    (search H.others maxLength).currHitLength = (H.searchOthers maxLength).hitLength := by
  have hpass : ∀ {s : Search Block} {t : Lookups}, s.currHitLength = t.hitLength →
      (pass H.others s).currHitLength = (H.passOthers t).hitLength := by
    intro s t h
    rw [H.pass_others_hit, h]
    rfl
  let R := fun (s : Search Block) (t : Lookups) => s.currHitLength = t.hitLength
  exact settle_sim R R H.passOthers_le (fun h => ⟨h, hpass h⟩) (fun h _ => hpass h)
    (fun h _ => hpass h) (maxLength + 1) (Nat.lt_succ_self maxLength) rfl

/-! ### The drafter -/

/-- A lookup of the drafter covers the bound it is made at. -/
def Covers (lookup : Bool × ℕ) : Prop := lookup.2 ≤ (H.drafter.lookup lookup.1 lookup.2).hitLength

instance : DecidablePred H.Covers := fun _ => inferInstanceAs (Decidable (_ ≤ _))

/-- The entry that a lookup gives a group id. -/
def entry (groupId : ℕ) (lookup : Bool × ℕ) : List Block × ℕ :=
  ((H.drafter.lookup lookup.1 lookup.2).blocks groupId,
    (H.drafter.lookup lookup.1 lookup.2).hitLength)

/-- The last of the lookups that covers its bound. -/
def lastCover (made : List (Bool × ℕ)) : Option (Bool × ℕ) :=
  (made.filter fun l => H.Covers l).getLast?

theorem lastCover_append (made : List (Bool × ℕ)) (lookup : Bool × ℕ) :
    H.lastCover (made ++ [lookup]) = if H.Covers lookup then some lookup else H.lastCover made := by
  unfold lastCover
  by_cases h : H.Covers lookup
  · simp [List.filter_append, h]
  · simp [List.filter_append, h]

/-- The visit of the drafter. -/
theorem visit_drafter (s : Search Block) (dropEagleBlock : Bool)
    (hdrop : dropEagleBlock = !s.eagleVerified.contains H.before.length) :
    (visit s H.drafter H.before.length).currHitLength = s.currHitLength ∧
      (∀ groupId ∈ H.drafter.groupIds, (visit s H.drafter H.before.length).recorded groupId =
        if H.Covers (dropEagleBlock, s.currHitLength) then
          some (H.entry groupId (dropEagleBlock, s.currHitLength))
        else s.recorded groupId) ∧
      (dropEagleBlock = true →
        H.before.length ∈ (visit s H.drafter H.before.length).eagleVerified) := by
  unfold visit
  simp only [H.draft, H.flagged, Bool.true_and, if_true, ← hdrop]
  by_cases hc : H.Covers (dropEagleBlock, s.currHitLength)
  · rw [if_pos (show s.currHitLength ≤ _ from hc)]
    refine ⟨rfl, fun groupId hid => ?_, fun hd => by simp [hd]⟩
    rw [if_pos hc]
    exact if_pos hid
  · rw [if_neg (show ¬ s.currHitLength ≤ _ from hc)]
    exact ⟨rfl, fun groupId _ => (if_neg hc).symm, fun hd => by simp [hd]⟩

/-- The search and the lookups of the drafter, before a pass. -/
structure Agrees (s : Search Block) (t : Lookups) : Prop where
  hit : s.currHitLength = t.hitLength
  recorded : ∀ groupId ∈ H.drafter.groupIds,
    s.recorded groupId = (H.lastCover t.made).map (H.entry groupId)
  verified : H.before.length ∈ s.eagleVerified ↔ t.last = some t.hitLength
  last : ∀ bound, t.last = some bound → descend H.after bound = t.hitLength

/-- What of it is left after the pass at which the search settles. -/
structure Agreed (s : Search Block) (t : Lookups) : Prop where
  hit : s.currHitLength = t.hitLength
  recorded : ∀ groupId ∈ H.drafter.groupIds,
    s.recorded groupId = (H.lastCover t.made).map (H.entry groupId)

variable {H}

/-- The EAGLE block is kept exactly if the bound is the one of the drafter's last lookup. -/
theorem Agrees.drop {s : Search Block} {t : Lookups} (h : H.Agrees s t) :
    decide (t.last ≠ some (descend H.before t.hitLength)) =
      !(visitFrom s 0 H.before).eagleVerified.contains H.before.length := by
  have hverified : H.before.length ∈ (visitFrom s 0 H.before).eagleVerified ↔
      t.last = some (descend H.before t.hitLength) := by
    rw [(H.visitFrom_before s).verified, h.verified, h.hit]
    constructor
    · rintro ⟨h1, h2⟩
      rw [h1, h2]
    · intro h1
      have h2 := h.last _ h1
      have h3 := descend_le H.after (descend H.before t.hitLength)
      have h4 := descend_le H.before t.hitLength
      have h5 : descend H.before t.hitLength = t.hitLength := by omega
      exact ⟨h1.trans (congrArg some h5), h5⟩
  simp [hverified]

/-- A pass over all the groups does to the hit length and to the entries of the drafter what
`passOthers` says. -/
theorem Agrees.pass {s : Search Block} {t : Lookups} (h : H.Agrees s t) :
    H.Agreed (pass H.groups s) (H.passOthers t) ∧
      ((H.passOthers t).hitLength ≠ t.hitLength → H.Agrees (pass H.groups s) (H.passOthers t)) := by
  have hb := H.visitFrom_before s
  have hbound : (visitFrom s 0 H.before).currHitLength = descend H.before t.hitLength :=
    h.hit ▸ hb.hit
  obtain ⟨hd1, hd2, hd3⟩ := H.visit_drafter (visitFrom s 0 H.before) _ h.drop
  have ha := H.visitFrom_after (visit (visitFrom s 0 H.before) H.drafter H.before.length)
  rw [← pass_groups] at ha
  have hhit : (PrefixHit.pass H.groups s).currHitLength = (H.passOthers t).hitLength := by
    rw [ha.hit, hd1, hbound]
    rfl
  have hrec : ∀ groupId ∈ H.drafter.groupIds, (PrefixHit.pass H.groups s).recorded groupId =
      (H.lastCover (H.passOthers t).made).map (H.entry groupId) := by
    intro groupId hid
    rw [ha.recorded groupId hid, hd2 groupId hid, hb.recorded groupId hid, h.recorded groupId hid,
      hbound]
    unfold passOthers
    rw [lastCover_append]
    split_ifs <;> rfl
  refine ⟨⟨hhit, hrec⟩, fun hne => ⟨hhit, hrec, ?_, ?_⟩⟩
  · -- A pass that does not settle has dropped the block: the group is verified now.
    have hnew : t.last ≠ some (descend H.before t.hitLength) := by
      intro h1
      have h2 := h.last _ h1
      exact hne h2
    rw [ha.verified, hd1, hbound, and_iff_right (hd3 (decide_eq_true hnew))]
    simp only [passOthers, Option.some.injEq]
    exact eq_comm
  · rintro bound ⟨⟩
    rfl

/-- **The search** with the drafter finds the hit length of the other groups, and records the
drafter's last lookup that covers its bound. -/
theorem search_agreed (H : Hybrid Block) (maxLength : ℕ) :
    H.Agreed (search H.groups maxLength) (H.searchOthers maxLength) :=
  settle_sim H.Agrees H.Agreed H.passOthers_le (fun h => ⟨h.hit, h.pass.1.hit⟩)
    (fun h hne => h.pass.2 hne) (fun h _ => h.pass.1) (maxLength + 1) (Nat.lt_succ_self maxLength)
    ⟨rfl, fun _ _ => rfl, by simp, by simp⟩

theorem lastCover_mem {made : List (Bool × ℕ)} {l : Bool × ℕ} (h : H.lastCover made = some l) :
    l ∈ made ∧ H.Covers l := by
  have := List.mem_of_getLast? h
  simpa using this

/-- The bounds of the lookups go down to the hit length. -/
theorem made_descend (H : Hybrid Block) (maxLength : ℕ) :
    (H.searchOthers maxLength).made.Pairwise (fun l l' => l'.2 ≤ l.2) ∧
      ∀ l ∈ (H.searchOthers maxLength).made, (H.searchOthers maxLength).hitLength ≤ l.2 := by
  let inv (t : Lookups) : Prop := t.made.Pairwise (fun l l' => l'.2 ≤ l.2) ∧
    ∀ l ∈ t.made, t.hitLength ≤ l.2
  have hstep : ∀ t, inv t → inv (H.passOthers t) := by
    rintro t ⟨h1, h2⟩
    have hb := descend_le H.before t.hitLength
    have ha := descend_le H.after (descend H.before t.hitLength)
    refine ⟨List.pairwise_append.mpr ⟨h1, List.pairwise_singleton _ _, ?_⟩, ?_⟩
    · rintro l hl _ (_ | ⟨_, ⟨⟩⟩)
      exact hb.trans (h2 l hl)
    · intro l hl
      rcases List.mem_append.mp hl with hl | hl
      · exact (H.passOthers_le t).trans (h2 l hl)
      · rw [List.mem_singleton.mp hl]
        exact ha
  obtain ⟨t, ht, heq, -⟩ := settle_rule inv H.passOthers_le hstep
    (Nat.lt_succ_self maxLength) (s := ⟨maxLength, none, []⟩) ⟨.nil, by simp⟩
  exact (show H.searchOthers maxLength = H.passOthers t from heq) ▸ hstep t ht

/-- The last lookup that covers its bound is made at the hit length, if one that covers is. -/
theorem lastCover_bound {maxLength : ℕ} {l l' : Bool × ℕ}
    (h : H.lastCover (H.searchOthers maxLength).made = some l)
    (hmem : l' ∈ (H.searchOthers maxLength).made) (hcovers : H.Covers l')
    (hbound : l'.2 = (H.searchOthers maxLength).hitLength) :
    l.2 = (H.searchOthers maxLength).hitLength := by
  obtain ⟨hsorted, hge⟩ := H.made_descend maxLength
  refine le_antisymm ?_ (hge l (lastCover_mem h).1)
  obtain ⟨made, hmade⟩ := List.getLast?_eq_some_iff.mp h
  have hsorted' := hsorted.filter fun l => decide (H.Covers l)
  have hmem' : l' ∈ (H.searchOthers maxLength).made.filter fun l => decide (H.Covers l) :=
    List.mem_filter.mpr ⟨hmem, decide_eq_true hcovers⟩
  rw [hmade] at hsorted' hmem'
  rcases List.mem_append.mp hmem' with hin | hin
  · exact hbound ▸ (List.pairwise_append.mp hsorted').2.2 l' hin l (.head _)
  · rw [← hbound, List.mem_singleton.mp hin]

/-! ### When the entries of the drafter are fresh -/

/-- The entries of the drafter are empty, or were returned by a lookup made at the hit length, which
they cover. -/
def Fresh (H : Hybrid Block) (maxLength : ℕ) : Prop :=
  ∀ groupId ∈ H.drafter.groupIds,
    (search H.groups maxLength).recorded groupId = none ∨
      ∃ l ∈ (H.searchOthers maxLength).made, l.2 = (search H.groups maxLength).currHitLength ∧
        (search H.groups maxLength).recorded groupId = some (H.entry groupId l) ∧
        (search H.groups maxLength).currHitLength ≤ (H.entry groupId l).2

/-- If a lookup of the drafter covers its bound, then one at the hit length of the other groups. -/
def CoversLast (H : Hybrid Block) (maxLength : ℕ) : Prop :=
  (∃ l ∈ (H.searchOthers maxLength).made, H.Covers l) →
    ∃ l ∈ (H.searchOthers maxLength).made, l.2 = (H.searchOthers maxLength).hitLength ∧ H.Covers l

/-- **When the hit is sound for the drafter.** The search finds the hit length of the groups without
the drafter, and leaves it no stale blocks, if and only if the window covers the hit length at a
lookup made there, or no bound at all. -/
theorem drafter_fresh_iff (H : Hybrid Block) (maxLength : ℕ) :
    ((search H.groups maxLength).currHitLength = (search H.others maxLength).currHitLength ∧
      H.Fresh maxLength) ↔ H.CoversLast maxLength := by
  have hs := H.search_agreed maxLength
  constructor
  · rintro ⟨-, hfresh⟩ ⟨l, hl, hcovers⟩
    obtain ⟨groupId, hid⟩ := List.exists_mem_of_ne_nil _ H.groupIds_ne
    have hrec := hs.recorded groupId hid
    rcases hfresh groupId hid with hnone | ⟨l', hl', hbound, -, hle⟩
    · rw [hnone, eq_comm, Option.map_eq_none_iff, lastCover, List.getLast?_eq_none_iff,
        List.filter_eq_nil_iff] at hrec
      exact absurd (decide_eq_true hcovers) (hrec l hl)
    · exact ⟨l', hl', hbound.trans hs.hit, hbound.le.trans hle⟩
  · intro h
    refine ⟨hs.hit.trans (H.search_others_hit maxLength).symm, fun groupId hid => ?_⟩
    rw [hs.recorded groupId hid, hs.hit]
    rcases hlast : H.lastCover (H.searchOthers maxLength).made with _ | l
    · exact .inl rfl
    · obtain ⟨hl, hcovers⟩ := lastCover_mem hlast
      obtain ⟨l', hl', hbound', hcovers'⟩ := h ⟨l, hl, hcovers⟩
      have hbound := lastCover_bound hlast hl' hcovers' hbound'
      exact .inr ⟨l, hl, hbound, rfl, hbound ▸ hcovers⟩

end Hybrid

/-! ### A stale window -/

/-- A group whose blocks are numbered from 0, and whose hit length at a bound is given. -/
def groupOf (cls : SpecClass) (groupIds : List ℕ) (useEagle : Bool) (hitLength : ℕ → ℕ) :
    AttentionGroup ℕ where
  spec := ⟨cls, []⟩
  groupIds := groupIds
  useEagle := useEagle
  lookup _ bound := ⟨fun _ => List.range (min (hitLength bound) bound), min (hitLength bound) bound⟩
  lookup_le _ _ := Nat.min_le_right _ _

/-- The drafter, whose window covers a hit of 10 blocks but not one of 5, before a mamba group of
which 5 blocks are cached. -/
def staleWindow : Hybrid ℕ where
  before := []
  drafter := groupOf .slidingWindowSpec [0] true fun bound => if 10 ≤ bound then 10 else 0
  after := [groupOf .mambaSpec [1] false fun _ => 5]
  draft := rfl
  flagged := rfl
  groupIds_ne := by decide
  others_draft := by simp [groupOf, isDraftSwaSpec, innerKvSpec]
  others_flagged := by simp [groupOf]
  others_groupIds := by simp [groupOf]

/-- The hit is of 5 blocks, and the 10 blocks recorded for the drafter stay. -/
theorem staleWindow_stale :
    (search staleWindow.groups 10).currHitLength = 5 ∧
      (search staleWindow.groups 10).recorded 0 = some (List.range 10, 10) ∧
      ¬ staleWindow.Fresh 10 := by
  have hhit : (search staleWindow.groups 10).currHitLength = 5 := by decide
  have hrec : (search staleWindow.groups 10).recorded 0 = some (List.range 10, 10) := by decide
  refine ⟨hhit, hrec, fun hfresh => ?_⟩
  rcases hfresh 0 (.head _) with hnone | ⟨l, -, hl, hentry, -⟩
  · rw [hrec] at hnone
    cases hnone
  · rw [hrec, Option.some.injEq] at hentry
    have h10 : (staleWindow.entry 0 l).2 = 10 := congrArg Prod.snd hentry.symm
    have hle : (staleWindow.entry 0 l).2 ≤ l.2 := staleWindow.drafter.lookup_le l.1 l.2
    rw [h10, hl, hhit] at hle
    exact absurd hle (by decide)

end Glm53Serve.PrefixHit
