import Glm53Serve.Exl3.FatGemm

/-!
# The pipelined k-loop has no races

A turn of the loop of `overlay/exl3_fat_gemm_pipe.cu` issues the copies of the next k block, commits
them, waits for those of its own, meets the other threads at the barrier and computes. Threads are
at most a barrier apart, so where one computes a k block, all have landed it, and none has issued a
copy to its stage again.

## What is proved

* `position` — where a thread can stand in its program.
* `pending_upto`, `landed` — what may pend there, and what is written.
* `raceFree_pipe` — there are no races.
* `stage_free` — no write to a stage is issued while an older tile may be read there.
-/

namespace Glm53Serve.Exl3.FatGemm

open AsyncThreads

variable {V : Type*} [Zero V] {o : Launch V}

/-! ### The pipelined program -/

/-- The program up to a turn. -/
def upto (o : Launch V) (t : Tid) (n : ℕ) : List (Instr Address V) :=
  prologue o t ++ (List.range n).flatMap (pipeTurn o t)

theorem upto_succ (t : Tid) (n : ℕ) :
    upto o t (n + 1) = upto o t n ++ (beforeSync o t n ++ .barrier :: compute V t n) := by
  rw [upto, List.range_succ, List.flatMap_append, List.flatMap_singleton, ← List.append_assoc,
    ← upto, pipeTurn]

/-- What a turn writes is of the next k block. -/
theorem writes_pipeTurn {t : Tid} {k : ℕ} {x : Instr Address V} (hx : x ∈ pipeTurn o t k)
    {w : Address × V} (hw : w ∈ x.writes) : x ∈ issueStage o t (k + 1) ∧ k + 1 < o.kBlocks ∧
      w.1.1 = k + 1 := by
  rw [pipeTurn, beforeSync] at hx
  rcases List.mem_append.mp hx with hx | hx
  · rcases List.mem_append.mp hx with hx | hx
    · split_ifs at hx with hk
      · exact ⟨hx, hk, ((writesTiles_issueStage t (k + 1)).sound x hx w hw).1⟩
      · cases hx
    · simp only [List.mem_cons, List.not_mem_nil, or_false] at hx
      rcases hx with rfl | rfl <;> cases hw
  · rcases List.mem_cons.mp hx with rfl | hx
    · cases hw
    · obtain ⟨c, -, rfl⟩ := mem_compute hx
      cases hw

theorem commit_not_mem_issueStage (t : Tid) (k : ℕ) : Instr.commit ∉ issueStage o t k := by
  rw [issueStage]
  split_ifs <;> simp

/-- What pends after the wait of a turn is of the next k block. -/
theorem pending_beforeSync {t : Tid} {n : ℕ} {l : List (Instr Address V)}
    (hgroups : (pending l).1 = n + 1)
    (hold : ∀ e ∈ (pending l).2, e.1 = n) : (pending (l ++ beforeSync o t n)).1 = n + 2 ∧
      ∀ e ∈ (pending (l ++ beforeSync o t n)).2, e.1 = n + 1 ∧ e.2.1.1 = n + 1 := by
  have hno : Instr.commit ∉ if n + 1 < o.kBlocks then issueStage o t (n + 1) else [] := by
    split_ifs
    · exact commit_not_mem_issueStage t (n + 1)
    · exact List.not_mem_nil
  obtain ⟨hsame, hmem⟩ := pending_append_of_no_commit (l := l) hno
  rw [beforeSync, ← List.append_assoc, ← List.singleton_append, ← List.append_assoc, pending_concat,
    pending_concat]
  simp only [pendStep, hsame, hgroups]
  refine ⟨trivial, fun e he => ?_⟩
  obtain ⟨he, hwait⟩ := List.mem_filter.mp he
  have hwait := of_decide_eq_true hwait
  rcases hmem e he with he | ⟨hg, hc⟩
  · have := hold e he
    omega
  · split_ifs at hc
    · exact ⟨by omega, ((writesTiles_issueStage t (n + 1)).sound _ hc _ rfl).1⟩
    · cases hc

omit [Zero V] in
theorem quiet_compute (t : Tid) (k : ℕ) {l : List (Instr Address V)}
    (h : l ⊆ .barrier :: compute V t k) :
    ∀ x ∈ l, x = .barrier ∨ ∃ a, x = .read a := by
  intro x hx
  rcases List.mem_cons.mp (h hx) with rfl | hx
  · exact .inl rfl
  · obtain ⟨c, -, rfl⟩ := mem_compute hx
    exact .inr ⟨_, rfl⟩

/-- What pends before a turn is of its k block. -/
theorem pending_upto (hK : 0 < o.kBlocks) (t : Tid) (n : ℕ) : (pending (upto o t n)).1 = n + 1 ∧
    ∀ e ∈ (pending (upto o t n)).2, e.1 = n ∧ e.2.1.1 = n := by
  induction n with
  | zero =>
    obtain ⟨hsame, hmem⟩ :=
      pending_append_of_no_commit (l := []) (commit_not_mem_issueStage (o := o) t 0)
    rw [upto, prologue, if_pos hK, List.range_zero, List.flatMap_nil, List.append_nil,
      pending_concat]
    rw [List.nil_append] at hsame hmem
    refine ⟨congrArg (· + 1) hsame, fun e he => ?_⟩
    rcases hmem e he with he | ⟨hg, hc⟩
    · cases he
    · exact ⟨hg, ((writesTiles_issueStage t 0).sound _ hc _ rfl).1⟩
  | succ n ih =>
    have h := pending_beforeSync (o := o) (t := t) ih.1 fun e he => (ih.2 e he).1
    rw [upto_succ, ← List.append_assoc, pending_append_of_quiet (quiet_compute t n fun _ hx => hx)]
    exact h

theorem barriers_prologue (t : Tid) : barriers (prologue o t) = 0 := by
  rw [prologue]
  split_ifs
  · rw [barriers_append, (writesTiles_issueStage t 0).noBarrier]
    rfl
  · rfl

theorem barriers_beforeSync (t : Tid) (k : ℕ) : barriers (beforeSync o t k) = 0 := by
  rw [beforeSync]
  split_ifs
  · rw [barriers_append, (writesTiles_issueStage t (k + 1)).noBarrier]
    rfl
  · rfl

theorem barriers_upto (t : Tid) (n : ℕ) : barriers (upto o t n) = n := by
  induction n with
  | zero => rw [upto, List.range_zero, List.flatMap_nil, List.append_nil, barriers_prologue]
  | succ n ih =>
    rw [upto_succ, barriers_append, ih, barriers_append, barriers_beforeSync, barriers,
      barriers_compute t n fun _ hx => hx]

theorem not_read_of_beforeSync {t : Tid} {k : ℕ} {x : Instr Address V} (hx : x ∈ beforeSync o t k) :
    x ≠ .barrier ∧ ∀ a, x ≠ .read a := by
  simp only [beforeSync, issueStage] at hx
  split_ifs at hx <;> simp at hx <;> rcases hx with rfl | rfl | rfl | rfl <;> simp

theorem not_read_of_prologue {t : Tid} {x : Instr Address V} (hx : x ∈ prologue o t) :
    x ≠ .barrier ∧ ∀ a, x ≠ .read a := by
  simp only [prologue, issueStage] at hx
  split_ifs at hx <;> simp at hx <;> rcases hx with rfl | rfl | rfl <;> simp

/-- Where a thread stands in its program. -/
inductive Position (o : Launch V) (t : Tid) (done rest : List (Instr Address V)) : Prop where
  /-- Before the loop. -/
  | prologue {c : List (Instr Address V)} : prologue o t = done ++ c → c ≠ [] → c <+: rest →
      Position o t done rest
  /-- In a turn, before the wait is over. -/
  | before {k : ℕ} {p c : List (Instr Address V)} : k < o.kBlocks →
      beforeSync o t k = p ++ c → c ≠ [] →
      done = upto o t k ++ p → c <+: rest → (∀ a, Instr.read a ∈ rest → k ≤ a.1) →
        Position o t done rest
  /-- At the barrier of a turn. -/
  | sync {k : ℕ} : k < o.kBlocks → done = upto o t k ++ beforeSync o t k →
      rest.head? = some .barrier →
      (∀ a, Instr.read a ∈ rest → k ≤ a.1) → Position o t done rest
  /-- In the computation of a turn. -/
  | computing {k : ℕ} {q c : List (Instr Address V)} : k < o.kBlocks →
      compute V t k = q ++ c → c ≠ [] →
      done = upto o t k ++ (beforeSync o t k ++ .barrier :: q) → c <+: rest →
      (∀ a, Instr.read a ∈ rest → k ≤ a.1) → Position o t done rest
  /-- At the end. -/
  | finished : done = upto o t o.kBlocks → rest = [] → Position o t done rest

theorem block_of_read {t : Tid} {k : ℕ} {a : Address} (h : Instr.read a ∈ pipeTurn o t k) :
    a.1 = k := by
  rw [pipeTurn] at h
  rcases List.mem_append.mp h with h | h
  · exact absurd rfl ((not_read_of_beforeSync h).2 a)
  · rcases List.mem_cons.mp h with h | h
    · cases h
    · obtain ⟨c, -, heq⟩ := mem_compute h
      rw [Instr.read.inj heq]

theorem head_of_prefix {γ : Type*} {c rest : List γ} (hc : c ≠ []) (h : c <+: rest) :
    ∃ x ∈ c, rest.head? = some x := by
  obtain ⟨x, c, rfl⟩ := List.exists_cons_of_ne_nil hc
  obtain ⟨q, rfl⟩ := h
  exact ⟨x, List.mem_cons_self, rfl⟩

/-- A thread in the loop stands somewhere. -/
theorem position_turns {t : Tid} {d rest : List (Instr Address V)}
    (h : (List.range o.kBlocks).flatMap (pipeTurn o t) = d ++ rest) :
    Position o t (prologue o t ++ d) rest := by
  rcases split_turns h with ⟨rfl, rfl⟩ | ⟨k, hk, p, p', hturn, hne, rfl, hpre, hrest⟩
  · exact .finished rfl rfl
  · have hlater : ∀ a, Instr.read a ∈ rest → k ≤ a.1 := by
      intro a ha
      rcases hrest _ ha with ha | ⟨k', hlt, -, ha⟩
      · exact (block_of_read (hturn ▸ List.mem_append_right p ha)).ge
      · rw [block_of_read ha]
        exact hlt.le
    rw [pipeTurn] at hturn
    rcases List.append_eq_append_iff.mp hturn with ⟨q, rfl, hsync⟩ | ⟨c, hbefore, rfl⟩
    · cases q with
      | nil =>
        rw [List.nil_append] at hsync
        rw [← hsync] at hpre
        obtain ⟨r, rfl⟩ := hpre
        exact .sync hk (by rw [List.append_nil, ← List.append_assoc, upto]) rfl hlater
      | cons x q =>
        rw [List.cons_append, List.cons.injEq] at hsync
        obtain ⟨rfl, hcompute⟩ := hsync
        exact .computing hk hcompute hne (by rw [← List.append_assoc, upto]) hpre hlater
    · rcases eq_or_ne c [] with rfl | hc
      · obtain ⟨r, rfl⟩ := hpre
        rw [List.append_nil] at hbefore
        exact .sync hk (by rw [hbefore, ← List.append_assoc, upto]) rfl hlater
      · exact .before hk hbefore hc (by rw [← List.append_assoc, upto])
          ((List.prefix_append _ _).trans hpre) hlater

/-- A thread stands somewhere. -/
theorem position {t : Tid} {done rest : List (Instr Address V)} (h : pipe o t = done ++ rest) :
    Position o t done rest := by
  rw [pipe] at h
  rcases List.append_eq_append_iff.mp h with ⟨d, rfl, hturns⟩ | ⟨c, hprologue, rfl⟩
  · exact position_turns hturns
  · rcases eq_or_ne c [] with rfl | hc
    · have hstart := position_turns (o := o) (t := t) (List.nil_append _).symm
      rwa [List.append_nil, hprologue, List.append_nil] at hstart
    · exact .prologue hprologue hc (List.prefix_append _ _)

/-- The last write of a list that writes the tiles of a k block. -/
theorem WritesTiles.lastWrite {t : Tid} {k : ℕ} {l : List (Instr Address V)}
    (h : WritesTiles o t k l)
    (loc : Address → ℕ × Cell) (hloc : ∀ a, (loc a).2 = a.2) {c : Cell} (hvalid : c.Valid)
    (hwriter : writer (loc (k, c)) = t) :
    AsyncThreads.lastWrite loc (loc (k, c)) l = some ((k, c), tile o (k, c)) := by
  have hcell := hloc (k, c)
  refine lastWrite_of_forall (h.complete c hvalid (loc (k, c)).1 ?_) rfl fun x hx w hw hsame => ?_
  · exact (congrArg writer (Prod.ext rfl hcell : loc (k, c) = ((loc (k, c)).1, c))).symm.trans
      hwriter
  · obtain ⟨hblock, hvalue, -⟩ := h.sound x hx w hw
    have haddress : w.1 = (k, c) := Prod.ext hblock (by rw [← hloc w.1, hsame, hcell])
    exact Prod.ext haddress (by rw [hvalue, haddress])

theorem lastWrite_upto {t : Tid} {k : ℕ} (hk : k < o.kBlocks) {c : Cell} (hvalid : c.Valid)
    (hwriter : writer (stageOf (k, c)) = t) :
    lastWrite stageOf (stageOf (k, c)) (upto o t k) = some ((k, c), tile o (k, c)) := by
  have htiles : lastWrite stageOf (stageOf (k, c)) (issueStage o t k) =
      some ((k, c), tile o (k, c)) :=
    (writesTiles_issueStage t k).lastWrite stageOf (fun _ => rfl) hvalid hwriter
  cases k with
  | zero =>
    rw [upto, List.range_zero, List.flatMap_nil, List.append_nil, prologue, if_pos hk,
      lastWrite_concat_of_ne fun w hw => by cases hw]
    exact htiles
  | succ k =>
    have hquiet : ∀ x ∈ ([.commit, .wait 1] ++ .barrier :: compute V t k : List (Instr Address V)),
        ∀ w ∈ x.writes, stageOf w.1 ≠ stageOf (k + 1, c) := by
      intro x hx w hw
      simp only [List.cons_append, List.nil_append, List.mem_cons] at hx
      rcases hx with rfl | rfl | rfl | hx
      · cases hw
      · cases hw
      · cases hw
      · obtain ⟨c, -, rfl⟩ := mem_compute hx
        cases hw
    rw [upto_succ, beforeSync, if_pos hk, List.append_assoc, ← List.append_assoc,
      lastWrite_append_of_ne hquiet, lastWrite_append, htiles, Option.some_or]

/-- The thread that owns the cell of an address has landed it, from the wait of the turn before it
is read to the wait of the turn after. -/
theorem landed {t : Tid} {k : ℕ} (hk : k < o.kBlocks) {c : Cell} (hvalid : c.Valid)
    (hwriter : writer (stageOf (k, c)) = t) {done : List (Instr Address V)}
    (hdone : (∃ q, q ⊆ .barrier :: compute V t k ∧ done = upto o t k ++ (beforeSync o t k ++ q)) ∨
      ∃ p, p ⊆ beforeSync o t (k + 1) ∧ done = upto o t (k + 1) ++ p) :
    lastWrite stageOf (stageOf (k, c)) done = some ((k, c), tile o (k, c)) ∧
      ∀ e ∈ (pending done).2, stageOf e.2.1 ≠ stageOf (k, c) := by
  have hK : 0 < o.kBlocks := by omega
  have hstage : ∀ a : Address, a.1 = k + 1 ∨ a.1 = k + 2 → stageOf a ≠ stageOf (k, c) := by
    intro a ha heq
    have hmod : a.1 % 3 = k % 3 := congrArg Prod.fst heq
    omega
  have hturn : ∀ m, (m = k ∨ m = k + 1) → ∀ x ∈ pipeTurn o t m, ∀ w ∈ x.writes,
      stageOf w.1 ≠ stageOf (k, c) := fun m hm x hx w hw =>
    hstage _ (by have := (writes_pipeTurn hx hw).2.2; omega)
  rcases hdone with ⟨q, hq, rfl⟩ | ⟨p, hp, rfl⟩
  · constructor
    · rw [lastWrite_append_of_ne fun x hx => hturn k (.inl rfl) x ?_]
      · exact lastWrite_upto hk hvalid hwriter
      · rw [pipeTurn]
        rcases List.mem_append.mp hx with hx | hx
        · exact List.mem_append_left _ hx
        · exact List.mem_append_right _ (hq hx)
    · intro e he
      obtain ⟨hgroups, hblock⟩ := pending_upto hK t k
      have hsync := pending_beforeSync (o := o) (t := t) hgroups fun e he => (hblock e he).1
      rw [← List.append_assoc, pending_append_of_quiet (quiet_compute t k hq)] at he
      exact hstage _ (.inl (hsync.2 e he).2)
  · constructor
    · rw [lastWrite_append_of_ne fun x hx => hturn (k + 1) (.inr rfl) x ?_, upto_succ, ← pipeTurn,
        lastWrite_append_of_ne fun x hx => hturn k (.inl rfl) x hx]
      · exact lastWrite_upto hk hvalid hwriter
      · exact List.mem_append_left _ (hp hx)
    · intro e he
      rcases mem_pending_append he with he | he
      · exact hstage _ (.inl ((pending_upto hK t (k + 1)).2 e he).2)
      · have hblock := (writes_pipeTurn (o := o) (List.mem_append_left _ (hp he)) rfl).2.2
        exact hstage _ (.inr hblock)

/-- Two instructions of a list do not write the same cell. -/
def Distinct (l : List (Instr Address V)) : Prop :=
  l.Pairwise fun x y => ∀ w ∈ x.writes, ∀ w' ∈ y.writes, w.1.2 ≠ w'.1.2

omit [Zero V] in
theorem Distinct.append_quiet {l l' : List (Instr Address V)} (h : Distinct l)
    (hquiet : ∀ x ∈ l', x.writes = none) : Distinct (l ++ l') := by
  refine List.pairwise_append.mpr ⟨h, ?_, fun x _ y hy w _ w' hw' => ?_⟩
  · refine List.pairwise_iff_forall_sublist.mpr fun {x y} hxy w _ w' hw' => ?_
    rw [hquiet y (hxy.subset (by simp))] at hw'
    cases hw'
  · rw [hquiet y hy] at hw'
    cases hw'

theorem distinct_prologue (t : Tid) : Distinct (prologue o t) := by
  rw [prologue]
  split_ifs
  · exact Distinct.append_quiet (writesTiles_issueStage t 0).distinct (by simp [Instr.writes])
  · exact List.Pairwise.nil

theorem distinct_beforeSync (t : Tid) (k : ℕ) : Distinct (beforeSync o t k) := by
  rw [beforeSync]
  refine Distinct.append_quiet ?_ (by simp [Instr.writes])
  split_ifs
  · exact (writesTiles_issueStage t (k + 1)).distinct
  · exact List.Pairwise.nil

theorem writes_prologue {t : Tid} {x : Instr Address V} (hx : x ∈ prologue o t) {w : Address × V}
    (hw : w ∈ x.writes) : x ∈ issueStage o t 0 := by
  rw [prologue] at hx
  split_ifs at hx
  · rcases List.mem_append.mp hx with hx | hx
    · exact hx
    · obtain rfl := List.mem_singleton.mp hx
      cases hw
  · cases hx

/-- How many barriers a thread has passed where it stands. -/
theorem barriers_before {t : Tid} {k : ℕ} {p c : List (Instr Address V)}
    (h : beforeSync o t k = p ++ c) :
    barriers (upto o t k ++ p) = k := by
  have hzero := barriers_beforeSync (o := o) t k
  rw [h, barriers_append] at hzero
  rw [barriers_append, barriers_upto]
  omega

theorem barriers_sync (t : Tid) (k : ℕ) : barriers (upto o t k ++ beforeSync o t k) = k :=
  barriers_before (List.append_nil _).symm

theorem barriers_computing {t : Tid} {k : ℕ} {q c : List (Instr Address V)}
    (h : compute V t k = q ++ c) :
    barriers (upto o t k ++ (beforeSync o t k ++ .barrier :: q)) = k + 1 := by
  rw [← List.append_assoc, barriers_append, barriers_sync, barriers,
    barriers_compute t k (h ▸ List.subset_append_left q c)]

/-- Where a thread reads. -/
theorem reading {t : Tid} {done rest : List (Instr Address V)} {a : Address}
    (h : pipe o t = done ++ .read a :: rest) : a.1 < o.kBlocks ∧ a.2.Valid ∧
      barriers done = a.1 + 1 := by
  cases position h with
  | @prologue c hprologue hc hpre =>
    obtain ⟨y, hy, hhead⟩ := head_of_prefix hc hpre
    obtain rfl := Option.some.inj hhead
    exact absurd rfl ((not_read_of_prologue (hprologue ▸ List.mem_append_right _ hy)).2 a)
  | @before k p c hk hbefore hc hdone hpre hlater =>
    obtain ⟨y, hy, hhead⟩ := head_of_prefix hc hpre
    obtain rfl := Option.some.inj hhead
    exact absurd rfl ((not_read_of_beforeSync (hbefore ▸ List.mem_append_right _ hy)).2 a)
  | sync hk hdone hhead hlater => cases hhead
  | @computing k q c hk hcompute hc hdone hpre hlater =>
    obtain ⟨y, hy, hhead⟩ := head_of_prefix hc hpre
    obtain rfl := Option.some.inj hhead
    obtain ⟨c, hvalid, heq⟩ := mem_compute (hcompute ▸ List.mem_append_right _ hy)
    obtain rfl := Instr.read.inj heq
    rw [hdone, barriers_computing hcompute]
    exact ⟨hk, hvalid, rfl⟩
  | finished hdone hnil => cases hnil

/-- **No races** in the pipelined kernel. -/
theorem raceFree_pipe (o : Launch V) : RaceFree stageOf (pipe o) writer (tile o) where
  owned := by
    intro t x hx w hw
    rcases List.mem_append.mp hx with hx | hx
    · exact ((writesTiles_issueStage t 0).sound x (writes_prologue hx hw) w hw).2.2 _
    · obtain ⟨k, -, hx⟩ := List.mem_flatMap.mp hx
      exact ((writesTiles_issueStage t (k + 1)).sound x (writes_pipeTurn hx hw).1 w hw).2.2 _
  fresh := by
    intro t done x rest hprog w hw e he hloc
    have hsame : e.2.1.2 = w.1.2 := (Prod.mk.inj hloc).2
    cases position hprog with
    | @prologue c hprologue hc hpre =>
      obtain ⟨c, rfl⟩ : ∃ c', c = x :: c' := by
        obtain ⟨y, c, rfl⟩ := List.exists_cons_of_ne_nil hc
        rw [List.cons_prefix_cons] at hpre
        exact ⟨c, by rw [hpre.1]⟩
      have hissued := (mem_pending_append (l := []) he).resolve_left List.not_mem_nil
      have hdistinct := distinct_prologue (o := o) t
      rw [hprologue] at hdistinct
      exact (List.pairwise_append.mp hdistinct).2.2 _ hissued x List.mem_cons_self e.2
        rfl w hw hsame
    | @before k p c hk hbefore hc hdone hpre hlater =>
      obtain ⟨c, rfl⟩ : ∃ c', c = x :: c' := by
        obtain ⟨y, c, rfl⟩ := List.exists_cons_of_ne_nil hc
        rw [List.cons_prefix_cons] at hpre
        exact ⟨c, by rw [hpre.1]⟩
      rw [hdone] at he
      rcases mem_pending_append he with hold | hissued
      · -- the copies of the turn before are to another stage
        have hblock := ((pending_upto (by omega) t k).2 e hold).2
        have hturn : x ∈ pipeTurn o t k := List.mem_append_left _ (hbefore ▸ by simp)
        have hnext := (writes_pipeTurn hturn hw).2.2
        have hmod : e.2.1.1 % 3 = w.1.1 % 3 := (Prod.mk.inj hloc).1
        omega
      · have hdistinct := distinct_beforeSync (o := o) t k
        rw [hbefore] at hdistinct
        exact (List.pairwise_append.mp hdistinct).2.2 _ hissued x List.mem_cons_self e.2
          rfl w hw hsame
    | sync hk hdone hhead hlater =>
      obtain rfl := Option.some.inj hhead
      cases hw
    | @computing k q c hk hcompute hc hdone hpre hlater =>
      obtain ⟨y, hy, hhead⟩ := head_of_prefix hc hpre
      obtain rfl := Option.some.inj hhead
      obtain ⟨c, -, rfl⟩ := mem_compute (hcompute ▸ List.mem_append_right _ hy)
      cases hw
    | finished hdone hnil => cases hnil
  readable := by
    intro t done a rest hprog done' rest' hprog' hnear
    obtain ⟨hk, hvalid, hbarriers⟩ := reading hprog
    rw [hbarriers] at hnear
    refine landed hk hvalid rfl ?_
    cases position hprog' with
    | @prologue c hprologue hc hpre =>
      obtain ⟨y, hy, hhead⟩ := head_of_prefix hc hpre
      have hzero : barriers done' = 0 := by
        have := barriers_prologue (o := o) (writer (stageOf a))
        rw [hprologue, barriers_append] at this
        omega
      rcases hnear with heq | ⟨-, hat⟩
      · omega
      · rw [hhead, Option.some.injEq] at hat
        exact absurd hat (not_read_of_prologue (hprologue ▸ List.mem_append_right _ hy)).1
    | @before k p c hlt hbefore hc hdone hpre hlater =>
      obtain ⟨y, hy, hhead⟩ := head_of_prefix hc hpre
      rcases hnear with heq | ⟨-, hat⟩
      · rw [hdone, barriers_before hbefore] at heq
        subst heq
        exact .inr ⟨p, hbefore ▸ List.subset_append_left p c, hdone⟩
      · rw [hhead, Option.some.injEq] at hat
        exact absurd hat (not_read_of_beforeSync (hbefore ▸ List.mem_append_right _ hy)).1
    | @sync k hlt hdone hhead hlater =>
      rw [hdone, barriers_sync] at hnear
      rcases hnear with heq | ⟨heq, -⟩
      · subst heq
        exact .inr ⟨_, fun _ hx => hx, hdone⟩
      · obtain rfl : k = a.1 := by omega
        exact .inl ⟨[], List.nil_subset _, by rw [List.append_nil, hdone]⟩
    | @computing k q c hlt hcompute hc hdone hpre hlater =>
      obtain ⟨y, hy, hhead⟩ := head_of_prefix hc hpre
      rcases hnear with heq | ⟨-, hat⟩
      · rw [hdone, barriers_computing hcompute] at heq
        obtain rfl : k = a.1 := by omega
        exact .inl ⟨.barrier :: q, List.cons_subset_cons _ (hcompute ▸ List.subset_append_left q c),
          hdone⟩
      · rw [hhead, Option.some.injEq] at hat
        obtain ⟨c, -, rfl⟩ := mem_compute (hcompute ▸ List.mem_append_right _ hy)
        cases hat
    | finished hdone hnil =>
      rcases hnear with heq | ⟨-, hat⟩
      · rw [hdone, barriers_upto] at heq
        rw [heq] at hdone
        exact .inr ⟨[], List.nil_subset _, by rw [List.append_nil, hdone]⟩
      · rw [hnil] at hat
        cases hat

/-! ### Stages are free -/

theorem writes_upto {t : Tid} {n : ℕ} {x : Instr Address V} (hx : x ∈ upto o t n) {w : Address × V}
    (hw : w ∈ x.writes) : w.1.1 ≤ n := by
  rcases List.mem_append.mp hx with hx | hx
  · exact ((writesTiles_issueStage t 0).sound x (writes_prologue hx hw) w hw).1 ▸ Nat.zero_le n
  · obtain ⟨k, hk, hx⟩ := List.mem_flatMap.mp hx
    have := (writes_pipeTurn hx hw).2.2
    have := List.mem_range.mp hk
    omega

/-- What a thread has issued is at most a k block ahead of its barriers. -/
theorem issued_le {t : Tid} {done rest : List (Instr Address V)} (h : pipe o t = done ++ rest)
    {x : Instr Address V} (hx : x ∈ done) {w : Address × V} (hw : w ∈ x.writes) :
    w.1.1 ≤ barriers done + 1 := by
  have hturn : ∀ {k : ℕ} {l : List (Instr Address V)}, done = upto o t k ++ l → l ⊆ pipeTurn o t k →
      w.1.1 ≤ k + 1 := fun {k l} hdone hl => by
    rw [hdone] at hx
    rcases List.mem_append.mp hx with hx | hx
    · exact (writes_upto hx hw).trans (Nat.le_succ k)
    · exact (writes_pipeTurn (hl hx) hw).2.2.le
  cases position h with
  | @prologue c hprologue hc hpre =>
    have hx' := writes_prologue (hprologue ▸ List.mem_append_left c hx) hw
    rw [((writesTiles_issueStage t 0).sound x hx' w hw).1]
    exact Nat.zero_le _
  | @before k p c hk hbefore hc hdone hpre hlater =>
    rw [hdone, barriers_before hbefore]
    exact hturn hdone fun y hy => List.mem_append_left _ (hbefore ▸ List.mem_append_left c hy)
  | @sync k hk hdone hhead hlater =>
    rw [hdone, barriers_sync]
    exact hturn hdone (List.subset_append_left _ _)
  | @computing k q c hk hcompute hc hdone hpre hlater =>
    rw [hdone, barriers_computing hcompute]
    refine (hturn hdone ?_).trans (Nat.le_succ _)
    rw [pipeTurn, hcompute]
    exact fun y hy => by
      rcases List.mem_append.mp hy with hy | hy
      · exact List.mem_append_left _ hy
      · exact List.mem_append_right _ (List.cons_subset_cons _ (List.subset_append_left q c) hy)
  | finished hdone hnil =>
    rw [hdone] at hx ⊢
    rw [barriers_upto]
    exact (writes_upto hx hw).trans (Nat.le_succ _)

/-- A thread that has to read a k block has not passed the barrier after it, nor does it stand
there. -/
theorem unread_ge {t : Tid} {done rest : List (Instr Address V)} (h : pipe o t = done ++ rest)
    {a : Address}
    (ha : Instr.read a ∈ rest) :
    barriers done ≤ a.1 + 1 ∧ (barriers done = a.1 + 1 → rest.head? ≠ some .barrier) := by
  cases position h with
  | @prologue c hprologue hc hpre =>
    have hzero : barriers done = 0 := by
      have := barriers_prologue (o := o) t
      rw [hprologue, barriers_append] at this
      omega
    omega
  | @before k p c hk hbefore hc hdone hpre hlater =>
    have := hlater a ha
    rw [hdone, barriers_before hbefore]
    omega
  | @sync k hk hdone hhead hlater =>
    have := hlater a ha
    rw [hdone, barriers_sync]
    omega
  | @computing k q c hk hcompute hc hdone hpre hlater =>
    have := hlater a ha
    rw [hdone, barriers_computing hcompute]
    refine ⟨by omega, fun _ hat => ?_⟩
    obtain ⟨y, hy, hhead⟩ := head_of_prefix hc hpre
    rw [hhead, Option.some.injEq] at hat
    obtain ⟨c, -, rfl⟩ := mem_compute (hcompute ▸ List.mem_append_right _ hy)
    cases hat
  | finished hdone hnil =>
    rw [hnil] at ha
    cases ha

/-- **Stages are free**: no write to a stage has been issued while a thread may read an older tile
there. -/
theorem stage_free {s : State Tid Address (ℕ × Cell) V} (h : Reached stageOf (pipe o) s) {i j : Tid}
    {x : Instr Address V} (hx : x ∈ (s.threads i).done) {w : Address × V} (hw : w ∈ x.writes)
    {a : Address}
    (ha : Instr.read a ∈ (s.threads j).rest) (hold : a.1 < w.1.1) :
    (stageOf w.1).1 ≠ (stageOf a).1 := by
  have hinv := h.inv (raceFree_pipe o)
  have hissued := issued_le (hinv.threads i).program.symm hx hw
  obtain ⟨hle, hat⟩ := unread_ge (hinv.threads j).program.symm ha
  have hpassed : barriers (s.threads i).done ≤ a.1 + 1 := by
    rcases hinv.apart i j with hapart | ⟨heq, hbarrier⟩
    · exact hapart.trans hle
    · have hne : barriers (s.threads j).done ≠ a.1 + 1 := fun heq => hat heq hbarrier
      simp only [Thread.passed] at heq
      omega
  simp only [stageOf]
  omega

end Glm53Serve.Exl3.FatGemm
