import Glm53Serve.Indexer.Workspace
import Glm53Serve.Lib.Tiles

/-!
# The chunks partition the batch

The splitter packs requests greedily into groups, lets a request that fits nowhere through
as a group of its own, and cuts the query rows of a group so that the logits of a cut fit
their budget.

## The model

`splitFrom` of the workspace module goes from group to group; `groups` lists these groups,
and a group's `chunks` are what it emits.

## What is proved

* `nextGroup_spec` — a group is the next requests, and fits where it has two or more.
* `splitFrom_eq` — the chunks are those of the groups.
* `splitPrefillChunks_partition` — the groups tile the requests, and the cuts of a group its
  query rows, within the workspace and the budget.
-/

namespace Glm53Serve.Indexer

open Ranges

/-! ### Groups -/

/-- A group: the requests `start ..< stop`, with their query rows and compressed keys. -/
structure Group where
  start : ℕ
  stop : ℕ
  chunkM : ℕ
  chunkN : ℕ
  deriving DecidableEq

/-- The groups of the outer loop, from the request with index `start` on. -/
def groups (workspaceSize maxLogitsElems : ℤ) (start : ℕ) : List (ℕ × ℕ) → List Group
  | [] => []
  | (q, s) :: reqs =>
    let g := nextGroup workspaceSize maxLogitsElems start q s reqs
    ⟨start, g.stop, g.chunkM, g.chunkN⟩ :: groups workspaceSize maxLogitsElems g.stop g.rest
termination_by reqs => reqs.length
decreasing_by exact nextGroup_rest_length workspaceSize maxLogitsElems start q s reqs

namespace Group

/-- The requests of the group. -/
def slice (g : Group) : ℕ × ℕ := (g.start, g.stop)

/-- The cuts of the query rows of the group. -/
def rowRanges (g : Group) (maxLogitsElems : ℤ) : List (ℕ × ℕ) :=
  steps g.chunkM (maxQueryRows maxLogitsElems g.chunkM g.chunkN)

/-- What the group emits. -/
def chunks (maxLogitsElems : ℤ) (g : Group) : List Chunk :=
  (g.rowRanges maxLogitsElems).map fun r => (g.slice, r)

end Group

/-- The chunks are those of the groups. -/
theorem splitFrom_eq (ws elems : ℤ) (start : ℕ) (reqs : List (ℕ × ℕ)) :
    splitFrom ws elems start reqs = (groups ws elems start reqs).flatMap (Group.chunks elems) := by
  induction start, reqs using groups.induct ws elems with
  | case1 start => rw [splitFrom, groups, List.flatMap_nil]
  | case2 start q s reqs g ih =>
    rw [splitFrom, groups, List.flatMap_cons, ← ih]
    congr 1
    simp only [subChunks, Group.chunks, Group.rowRanges, steps, List.map_map]
    rfl

/-! ### What a group holds -/

/-- The query rows of the requests. -/
def totalRows (reqs : List (ℕ × ℕ)) : ℕ := (reqs.map (·.1)).sum

/-- The inner loop packs the next requests; what it packs fits. -/
theorem packRequests_spec (ws elems : ℤ) (reqs : List (ℕ × ℕ)) : ∀ stop m n : ℕ,
    ∃ taken, reqs = taken ++ (packRequests ws elems stop m n reqs).rest ∧
      (packRequests ws elems stop m n reqs).stop = stop + taken.length ∧
      (packRequests ws elems stop m n reqs).chunkM = m + totalRows taken ∧
      (packRequests ws elems stop m n reqs).chunkN = n + totalKeys taken ∧
      (taken ≠ [] →
        ((packRequests ws elems stop m n reqs).chunkN : ℤ) ≤ ws ∧
        ((packRequests ws elems stop m n reqs).chunkM *
          (packRequests ws elems stop m n reqs).chunkN : ℤ) ≤ elems) := by
  induction reqs with
  | nil => exact fun stop m n => ⟨[], rfl, rfl, rfl, rfl, fun h => absurd rfl h⟩
  | cons r reqs ih =>
    obtain ⟨q, s⟩ := r
    intro stop m n
    simp only [packRequests]
    split_ifs with hfit
    · obtain ⟨taken, hreqs, hstop, hm, hn, hle⟩ := ih (stop + 1) (m + q) (n + s)
      refine ⟨(q, s) :: taken, ?_, ?_, ?_, ?_, fun _ => ?_⟩
      · rw [List.cons_append, ← hreqs]
      · rw [hstop, List.length_cons]
        omega
      · rw [hm, totalRows, totalRows, List.map_cons, List.sum_cons, Nat.add_assoc]
      · rw [hn, totalKeys_cons, Nat.add_assoc]
      · -- the last fitting request decides: it is this one if none is taken after it
        by_cases ht : taken = []
        · subst ht
          rw [hm, hn]
          simpa [totalRows, totalKeys] using hfit
        · exact hle ht
    · exact ⟨[], rfl, rfl, rfl, rfl, fun h => absurd rfl h⟩

/-- A group is the next request or more; two or more fit. -/
theorem nextGroup_spec (ws elems : ℤ) (start q s : ℕ) (reqs : List (ℕ × ℕ)) :
    ∃ taken, taken ≠ [] ∧ (q, s) :: reqs = taken ++ (nextGroup ws elems start q s reqs).rest ∧
      (nextGroup ws elems start q s reqs).stop = start + taken.length ∧
      (nextGroup ws elems start q s reqs).chunkM = totalRows taken ∧
      (nextGroup ws elems start q s reqs).chunkN = totalKeys taken ∧
      (2 ≤ taken.length →
        ((nextGroup ws elems start q s reqs).chunkN : ℤ) ≤ ws ∧
        ((nextGroup ws elems start q s reqs).chunkM *
          (nextGroup ws elems start q s reqs).chunkN : ℤ) ≤ elems) := by
  obtain ⟨taken, hreqs, hstop, hm, hn, hle⟩ := packRequests_spec ws elems ((q, s) :: reqs) start 0 0
  simp only [nextGroup]
  split_ifs with he
  · refine ⟨[(q, s)], by simp, rfl, rfl, by simp [totalRows], by simp [totalKeys], fun h => ?_⟩
    simp at h
  · have hne : taken ≠ [] := by
      rintro rfl
      exact he hstop
    exact ⟨taken, hne, hreqs, hstop, by rw [hm, Nat.zero_add], by rw [hn, Nat.zero_add],
      fun _ => hle hne⟩

/-- The groups tile the requests from `start` on. -/
theorem tiles_groups (ws elems : ℤ) (start : ℕ) (reqs : List (ℕ × ℕ)) :
    Tiles start (start + reqs.length) ((groups ws elems start reqs).map Group.slice) := by
  induction start, reqs using groups.induct ws elems with
  | case1 start =>
    rw [groups]
    exact .nil start
  | case2 start q s reqs g ih =>
    obtain ⟨taken, hne, hreqs, hstop, -⟩ := nextGroup_spec ws elems start q s reqs
    have hpos := List.length_pos_iff.mpr hne
    have hlen := congrArg List.length hreqs
    rw [List.length_append] at hlen
    rw [groups, List.map_cons, hlen, ← Nat.add_assoc, ← hstop]
    have hlt : start < (nextGroup ws elems start q s reqs).stop := by omega
    exact .cons hlt ih

/-- The part `start ..< stop` of a list. -/
def part {α : Type*} (l : List α) (start stop : ℕ) : List α := (l.take stop).drop start

theorem part_append {α : Type*} (pre taken rest : List α) :
    part (pre ++ (taken ++ rest)) pre.length (pre.length + taken.length) = taken := by
  rw [part, ← List.append_assoc, ← List.length_append, List.take_left, List.drop_left]

/-- What a group counts, and that it fits where it has two requests or more. -/
structure Group.Packs (ws elems : ℤ) (reqs : List (ℕ × ℕ)) (g : Group) : Prop where
  chunkM : g.chunkM = totalRows (part reqs g.start g.stop)
  chunkN : g.chunkN = totalKeys (part reqs g.start g.stop)
  fits : g.start + 2 ≤ g.stop → (g.chunkN : ℤ) ≤ ws ∧ (g.chunkM * g.chunkN : ℤ) ≤ elems

theorem packs_of_mem_groups (ws elems : ℤ) (start : ℕ) (reqs : List (ℕ × ℕ)) :
    ∀ pre, pre.length = start → ∀ g ∈ groups ws elems start reqs, g.Packs ws elems
      (pre ++ reqs) := by
  induction start, reqs using groups.induct ws elems with
  | case1 start =>
    intro pre _ g hg
    rw [groups] at hg
    cases hg
  | case2 start q s reqs g ih =>
    rintro pre rfl g' hg'
    obtain ⟨taken, hne, hreqs, hstop, hm, hn, hfit⟩ := nextGroup_spec ws elems pre.length q s reqs
    rw [groups] at hg'
    rcases List.mem_cons.mp hg' with rfl | hg'
    · refine ⟨?_, ?_, fun h => hfit ?_⟩
      · rw [hreqs, hstop, part_append, hm]
      · rw [hreqs, hstop, part_append, hn]
      · simp only [hstop] at h
        omega
    · have hmem := ih (pre ++ taken) (by rw [List.length_append, hstop]) g' hg'
      rwa [List.append_assoc, ← hreqs] at hmem

/-! ### The cuts of a group -/

theorem maxQueryRows_pos (elems : ℤ) (m n : ℕ) : 0 < maxQueryRows elems m n := by
  simp only [maxQueryRows]
  split_ifs <;> omega

/-- Where the logits of all rows fit their budget, the rows are not cut. -/
theorem le_maxQueryRows {elems : ℤ} {m n : ℕ} (h : (m * n : ℤ) ≤ elems) :
    m ≤ maxQueryRows elems m n := by
  simp only [maxQueryRows]
  split_ifs with hn
  · have hdiv : (m : ℤ) ≤ elems / n := (Int.le_ediv_iff_mul_le (by omega)).mpr h
    omega
  · exact le_max_right _ _

/-- A cut of the greatest length fits the budget, or is of one row. -/
theorem maxQueryRows_fits {elems : ℤ} (he : 0 ≤ elems) {m n k : ℕ}
    (h : k ≤ maxQueryRows elems m n) :
    (k * n : ℤ) ≤ elems ∨ k ≤ 1 := by
  simp only [maxQueryRows] at h
  split_ifs at h with hn
  · by_cases hone : elems / n ≤ 1
    · right
      omega
    · left
      exact (Int.le_ediv_iff_mul_le (by omega)).mp (by omega)
  · left
    rw [Nat.eq_zero_of_not_pos hn]
    simpa using he

namespace Group

variable (g : Group)

theorem tiles_rowRanges (elems : ℤ) : Tiles 0 g.chunkM (g.rowRanges elems) :=
  tiles_steps (maxQueryRows_pos elems g.chunkM g.chunkN) g.chunkM

theorem rowRanges_of_fits {elems : ℤ} (h : (g.chunkM * g.chunkN : ℤ) ≤ elems) :
    g.rowRanges elems = if g.chunkM = 0 then [] else [(0, g.chunkM)] :=
  steps_of_le (maxQueryRows_pos elems g.chunkM g.chunkN) (le_maxQueryRows h)

theorem rowRanges_fit {elems : ℤ} (he : 0 ≤ elems) {r : ℕ × ℕ} (hr : r ∈ g.rowRanges elems) :
    ((r.2 - r.1 : ℕ) * g.chunkN : ℤ) ≤ elems ∨ r.2 = r.1 + 1 := by
  obtain ⟨-, hlt, -⟩ := (g.tiles_rowRanges elems).bounds hr
  refine (maxQueryRows_fits he (length_step hr)).imp_right fun h => ?_
  omega

/-- What the splitter owes a group of the batch. -/
structure Faithful (compressedSeqLens queryLens : List ℕ) (ws elems : ℤ) : Prop where
  /-- The rows are those of the requests of the slice. -/
  rows : g.chunkM = (part queryLens g.start g.stop).sum
  /-- The keys are those of the requests of the slice. -/
  keys : g.chunkN = (part compressedSeqLens g.start g.stop).sum
  /-- The cuts are not empty and follow one another over all rows. -/
  tiles : Tiles 0 g.chunkM (g.rowRanges elems)
  /-- Every row is in one cut. -/
  covers : (g.rowRanges elems).flatMap (fun r => List.range' r.1 (r.2 - r.1)) = List.range g.chunkM
  /-- Two requests or more fit the workspace and the budget, uncut. -/
  together : g.start + 2 ≤ g.stop → (g.chunkN : ℤ) ≤ ws ∧ (g.chunkM * g.chunkN : ℤ) ≤ elems ∧
    g.rowRanges elems = if g.chunkM = 0 then [] else [(0, g.chunkM)]
  /-- A cut fits the budget or is of one row. -/
  fits : 0 ≤ elems → ∀ r ∈ g.rowRanges elems,
    ((r.2 - r.1 : ℕ) * g.chunkN : ℤ) ≤ elems ∨ r.2 = r.1 + 1

end Group

theorem part_map {α β : Type*} (f : α → β) (l : List α) (start stop : ℕ) :
    (part l start stop).map f = part (l.map f) start stop := by
  rw [part, part, List.map_drop, List.map_take]

/-- The first parts of the pairs are as many as there are second ones. -/
theorem map_fst_zip_take {α β : Type*} {l : List α} {l' : List β} (h : l'.length ≤ l.length) :
    (l.zip l').map (·.1) = l.take l'.length := by
  rw [List.zip_eq_zip_take_min, min_eq_right h, List.take_length]
  exact List.map_fst_zip (by rw [List.length_take]; omega)

theorem part_take {α : Type*} (l : List α) {n start stop : ℕ} (h : stop ≤ n) :
    part (l.take n) start stop = part l start stop := by
  rw [part, part, List.take_take, min_eq_left h]

/-- **The chunks partition the batch**: they are the cuts of groups whose slices tile the
requests, and each group is cut faithfully. -/
theorem splitPrefillChunks_partition {compressedSeqLens queryLens : List ℕ}
    (hlen : compressedSeqLens.length ≤ queryLens.length) (workspaceSize maxLogitsBytes : ℤ) :
    ∃ gs : List Group,
      gs = groups workspaceSize (maxLogitsBytes / 4) 0 (queryLens.zip compressedSeqLens) ∧
      splitPrefillChunks compressedSeqLens queryLens workspaceSize maxLogitsBytes =
        gs.flatMap (Group.chunks (maxLogitsBytes / 4)) ∧
      Tiles 0 compressedSeqLens.length (gs.map Group.slice) ∧
      (gs.map Group.slice).flatMap (fun r => List.range' r.1 (r.2 - r.1)) =
        List.range compressedSeqLens.length ∧
      ∀ g ∈ gs, g.Faithful compressedSeqLens queryLens workspaceSize (maxLogitsBytes / 4) := by
  have htiles := tiles_groups workspaceSize (maxLogitsBytes / 4) 0 (queryLens.zip compressedSeqLens)
  rw [Nat.zero_add, List.length_zip, min_eq_right hlen] at htiles
  refine ⟨_, rfl, splitFrom_eq _ _ _ _, htiles, ?_, fun g hg => ?_⟩
  · rw [htiles.covers, Nat.sub_zero, List.range_eq_range']
  · obtain ⟨hm, hn, hfit⟩ := packs_of_mem_groups _ _ _ _ [] rfl g hg
    have hstop : g.stop ≤ compressedSeqLens.length :=
      (htiles.bounds (List.mem_map_of_mem hg)).2.2
    have hrows := g.tiles_rowRanges (maxLogitsBytes / 4)
    refine ⟨?_, ?_, hrows, ?_, fun h => ?_, fun he r hr => g.rowRanges_fit he hr⟩
    · rw [hm, totalRows, List.nil_append, part_map, map_fst_zip_take hlen,
        part_take _ hstop]
    · rw [hn, totalKeys, List.nil_append, part_map, List.map_snd_zip hlen]
    · rw [hrows.covers, Nat.sub_zero, List.range_eq_range']
    · obtain ⟨hws, helems⟩ := hfit h
      exact ⟨hws, helems, g.rowRanges_of_fits helems⟩

/-- A request that fits nowhere, two that are packed together, and one without rows. -/
theorem splitPrefillChunks_partition_four :
    ∃ gs : List Group,
      gs = groups 10 (64 / 4) 0 ([5, 2, 3, 0].zip [20, 1, 2, 9]) ∧
      splitPrefillChunks [20, 1, 2, 9] [5, 2, 3, 0] 10 64 = gs.flatMap (Group.chunks (64 / 4)) ∧
      Tiles 0 4 (gs.map Group.slice) ∧
      (gs.map Group.slice).flatMap (fun r => List.range' r.1 (r.2 - r.1)) = List.range 4 ∧
      ∀ g ∈ gs, g.Faithful [20, 1, 2, 9] [5, 2, 3, 0] 10 (64 / 4) :=
  splitPrefillChunks_partition (by decide) 10 64

end Glm53Serve.Indexer
