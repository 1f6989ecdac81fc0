import Glm53Serve.Exl3.FatPipe

/-!
# The pipelined fat GEMM agrees with the stock one

The stock loop of `overlay/exl3_fat_gemm.cu` stores the tiles of a k block, meets the other threads,
computes, and meets them again. Neither loop has races, so each thread reads the same tiles in the
same order, and the fragments are accumulated from what the threads of a warp have read.

## What is proved

* `raceFree_stock` — the stock loop has no races.
* `pipe_eq_stock` — every interleaving of the pipelined loop reads the tiles, and ends with the
  fragments of the stock loop.
-/

namespace Glm53Serve.Exl3.FatGemm

open AsyncThreads

variable {V : Type*} [Zero V] {o : Launch V}

/-! ### The stock program -/

/-- The stock program up to a turn. -/
def uptoStock (o : Launch V) (t : Tid) (n : ℕ) : List (Instr Address V) :=
  (List.range n).flatMap (stockTurn o t)

theorem barriers_uptoStock (t : Tid) (n : ℕ) : barriers (uptoStock o t n) = 2 * n := by
  induction n with
  | zero => rfl
  | succ n ih =>
    have hturn : barriers (stockTurn o t n) = 2 := by
      rw [stockTurn, barriers_append, (writesTiles_storeTiles t n).noBarrier, barriers,
        barriers_append,
        barriers_compute t n fun _ hx => hx]
      rfl
    rw [uptoStock, List.range_succ, List.flatMap_append, List.flatMap_singleton, barriers_append,
      ← uptoStock,
      ih, hturn]
    omega

theorem copy_not_mem_stock {t : Tid} {a : Address} {v : V} : Instr.copy a v ∉ stock o t := by
  intro h
  obtain ⟨k, -, h⟩ := List.mem_flatMap.mp h
  rw [stockTurn, List.mem_append, List.mem_cons, List.mem_append, List.mem_singleton] at h
  rcases h with h | h | h | h
  · rw [storeTiles] at h
    split_ifs at h <;> simp at h
  · cases h
  · obtain ⟨c, -, heq⟩ := mem_compute h
    cases heq
  · cases h

theorem storeTiles_quiet {t : Tid} {k : ℕ} {x : Instr Address V} (hx : x ∈ storeTiles o t k) :
    x ≠ .barrier ∧ ∀ a, x ≠ .read a := by
  rw [storeTiles] at hx
  split_ifs at hx <;> simp at hx <;> rcases hx with rfl | rfl <;> simp

/-- Where a thread stands in the stock program. -/
inductive StockPosition (o : Launch V) (t : Tid) (done rest : List (Instr Address V)) : Prop where
  /-- At the stores of a turn. -/
  | storing {k : ℕ} {p c : List (Instr Address V)} : storeTiles o t k = p ++ c → c ≠ [] →
      done = uptoStock o t k ++ p → c <+: rest → StockPosition o t done rest
  /-- Behind them, up to the second barrier. -/
  | stored {k : ℕ} {q c : List (Instr Address V)} :
      .barrier :: compute V t k ++ [.barrier] = q ++ c → c ≠ [] →
      done = uptoStock o t k ++ (storeTiles o t k ++ q) → c <+: rest → StockPosition o t done rest
  /-- At the end. -/
  | finished : done = uptoStock o t o.kBlocks → rest = [] → StockPosition o t done rest

theorem stockPosition {t : Tid} {done rest : List (Instr Address V)}
    (h : stock o t = done ++ rest) :
    StockPosition o t done rest := by
  rcases split_turns h with ⟨rfl, rfl⟩ | ⟨k, hk, p, p', hturn, hne, rfl, hpre, -⟩
  · exact .finished rfl rfl
  · rw [stockTurn, ← List.cons_append] at hturn
    rcases List.append_eq_append_iff.mp hturn with ⟨q, rfl, hstored⟩ | ⟨c, hstore, rfl⟩
    · exact .stored hstored hne rfl hpre
    · rcases eq_or_ne c [] with rfl | hc
      · rw [List.append_nil] at hstore
        exact .stored (List.nil_append _).symm (by simp)
          (by rw [hstore, List.append_nil, uptoStock]) hpre
      · exact .storing hstore hc rfl ((List.prefix_append _ _).trans hpre)

omit [Zero V] in
/-- Behind the stores a thread is at the first barrier, or it has passed that one alone. -/
theorem stored_cases {t : Tid} {k : ℕ} {q c : List (Instr Address V)}
    (h : .barrier :: compute V t k ++ [.barrier] = q ++ c) (hc : c ≠ []) :
    (q = [] ∧ c.head? = some .barrier) ∨ ∃ q', q = .barrier :: q' ∧ q' ⊆ compute V t k := by
  cases q with
  | nil =>
    rw [List.nil_append] at h
    exact .inl ⟨rfl, by rw [← h]; rfl⟩
  | cons x q =>
    rw [List.cons_append, List.cons_append, List.cons.injEq] at h
    obtain ⟨rfl, h⟩ := h
    refine .inr ⟨q, rfl, ?_⟩
    rcases List.append_eq_append_iff.mp h with ⟨d, rfl, hd⟩ | ⟨d, hd, -⟩
    · rcases List.append_eq_singleton_iff.mp hd.symm with ⟨rfl, -⟩ | ⟨-, hnil⟩
      · rw [List.append_nil]
        exact fun _ hx => hx
      · exact absurd hnil hc
    · rw [hd]
      exact List.subset_append_left q d

theorem barriers_stored {t : Tid} {k : ℕ} {q : List (Instr Address V)} (hq : q ⊆ compute V t k) :
    barriers (uptoStock o t k ++ (storeTiles o t k ++ .barrier :: q)) = 2 * k + 1 := by
  rw [barriers_append, barriers_uptoStock, barriers_append,
    (writesTiles_storeTiles t k).noBarrier, barriers,
    barriers_compute t k hq]

theorem barriers_storing {t : Tid} {k : ℕ} {p c : List (Instr Address V)}
    (h : storeTiles o t k = p ++ c) :
    barriers (uptoStock o t k ++ p) = 2 * k := by
  have hzero := (writesTiles_storeTiles (o := o) t k).noBarrier
  rw [h, barriers_append] at hzero
  rw [barriers_append, barriers_uptoStock]
  omega

/-- Where a thread reads in the stock program. -/
theorem readingStock {t : Tid} {done rest : List (Instr Address V)} {a : Address}
    (h : stock o t = done ++ .read a :: rest) : a.2.Valid ∧ barriers done = 2 * a.1 + 1 := by
  cases stockPosition h with
  | @storing k p c hstore hc hdone hpre =>
    obtain ⟨y, hy, hhead⟩ := head_of_prefix hc hpre
    obtain rfl := Option.some.inj hhead
    exact absurd rfl ((storeTiles_quiet (hstore ▸ List.mem_append_right _ hy)).2 a)
  | @stored k q c hstored hc hdone hpre =>
    obtain ⟨y, hy, hhead⟩ := head_of_prefix hc hpre
    obtain rfl := Option.some.inj hhead
    have hmem : Instr.read a ∈ compute V t k := by
      have hmem : Instr.read a ∈ .barrier :: compute V t k ++ [.barrier] :=
        hstored ▸ List.mem_append_right _ hy
      simpa using hmem
    obtain ⟨cell, hvalid, heq⟩ := mem_compute hmem
    obtain rfl := Instr.read.inj heq
    rcases stored_cases hstored hc with ⟨-, hat⟩ | ⟨q', rfl, hq⟩
    · obtain ⟨r, rfl⟩ := List.head?_eq_some_iff.mp hat
      obtain ⟨r', hr⟩ := hpre
      cases hr
    · rw [hdone, barriers_stored hq]
      exact ⟨hvalid, rfl⟩
  | finished hdone hnil => cases hnil

theorem pending_stock {t : Tid} {done rest : List (Instr Address V)}
    (h : stock o t = done ++ rest) :
    (pending done).2 = [] := by
  refine List.eq_nil_iff_forall_not_mem.mpr fun e he => ?_
  have hissued := (mem_pending_append (l := []) he).resolve_left List.not_mem_nil
  exact copy_not_mem_stock (h ▸ List.mem_append_left rest hissued)

/-- **No races** in the stock kernel. -/
theorem raceFree_stock (o : Launch V) : RaceFree bufferOf (stock o) writer (tile o) where
  owned := by
    intro t x hx w hw
    obtain ⟨k, -, hx⟩ := List.mem_flatMap.mp hx
    rw [stockTurn] at hx
    rcases List.mem_append.mp hx with hx | hx
    · exact ((writesTiles_storeTiles t k).sound x hx w hw).2.2 _
    · have hnone : x.writes = none := by
        simp only [List.mem_cons, List.mem_append, List.not_mem_nil, or_false] at hx
        rcases hx with rfl | hx | rfl
        · rfl
        · obtain ⟨c, -, rfl⟩ := mem_compute hx
          rfl
        · rfl
      rw [hnone] at hw
      cases hw
  fresh := by
    intro t done x rest hprog w _ e he
    rw [pending_stock hprog] at he
    cases he
  readable := by
    intro t done a rest hprog done' rest' hprog' hnear
    obtain ⟨hvalid, hbarriers⟩ := readingStock hprog
    rw [hbarriers] at hnear
    suffices hstored : ∃ q, (∀ x ∈ q, Instr.writes x = none) ∧
        done' = uptoStock o (writer (bufferOf a)) a.1 ++
            (storeTiles o (writer (bufferOf a)) a.1 ++ q) by
      obtain ⟨q, hquiet, rfl⟩ := hstored
      have htiles : lastWrite bufferOf (bufferOf a) (storeTiles o (writer (bufferOf a)) a.1) =
          some (a, tile o a) :=
        (writesTiles_storeTiles (writer (bufferOf a)) a.1).lastWrite bufferOf
          (fun _ => rfl) hvalid rfl
      have hnone : ∀ x ∈ q, ∀ w ∈ x.writes, bufferOf w.1 ≠ bufferOf a := fun x hx w hw => by
        rw [hquiet x hx] at hw
        cases hw
      rw [← List.append_assoc, lastWrite_append_of_ne hnone, lastWrite_append, htiles,
        Option.some_or,
        List.append_assoc, pending_stock hprog']
      exact ⟨rfl, fun e he => nomatch he⟩
    cases stockPosition hprog' with
    | @storing k p c hstore hc hdone hpre =>
      rw [hdone, barriers_storing hstore] at hnear
      obtain ⟨y, hy, hhead⟩ := head_of_prefix hc hpre
      rcases hnear with heq | ⟨-, hat⟩
      · omega
      · rw [hhead, Option.some.injEq] at hat
        exact absurd hat (storeTiles_quiet (hstore ▸ List.mem_append_right _ hy)).1
    | @stored k q c hstored hc hdone hpre =>
      rcases stored_cases hstored hc with ⟨rfl, -⟩ | ⟨q', rfl, hq⟩
      · rw [hdone, List.append_nil, barriers_storing (List.append_nil _).symm] at hnear
        obtain rfl : k = a.1 := by omega
        exact ⟨[], by simp, hdone⟩
      · rw [hdone, barriers_stored hq] at hnear
        obtain rfl : k = a.1 := by omega
        refine ⟨_, fun x hx => ?_, hdone⟩
        rcases List.mem_cons.mp hx with rfl | hx
        · rfl
        · obtain ⟨c, -, rfl⟩ := mem_compute (hq hx)
          rfl
    | finished hdone hnil =>
      rw [hdone, barriers_uptoStock] at hnear
      rcases hnear with heq | ⟨-, hat⟩
      · omega
      · rw [hnil] at hat
        cases hat

/-! ### Both kernels read the same -/

omit [Zero V] in
theorem reads_eq_nil {l : List (Instr Address V)} (h : ∀ x ∈ l, ∀ a, x ≠ .read a) :
    reads l = [] := by
  refine List.filterMap_eq_nil_iff.mpr fun x hx => ?_
  cases x with
  | read a => exact absurd rfl (h _ hx a)
  | store | copy | commit | wait | barrier => rfl

theorem reads_turns {f : ℕ → List (Instr Address V)} {t : Tid}
    (h : ∀ k, reads (f k) = reads (compute V t k)) (n : ℕ) :
    (reads ((List.range n).flatMap f)).map (tile o) = (List.range n).flatMap (tilesRead o t) := by
  induction n with
  | zero => rfl
  | succ n ih =>
    rw [List.range_succ, List.flatMap_append, List.flatMap_append, reads_append,
      List.map_append, ih,
      List.flatMap_singleton, List.flatMap_singleton, h, tilesRead_eq]

theorem reads_pipe (t : Tid) : (reads (pipe o t)).map (tile o) = (List.range o.kBlocks).flatMap
    (tilesRead o t) := by
  have hturn : ∀ k, reads (pipeTurn o t k) = reads (compute V t k) := fun k => by
    rw [pipeTurn, reads_append, reads_eq_nil fun x hx => (not_read_of_beforeSync hx).2]
    rfl
  rw [pipe, reads_append, reads_eq_nil fun x hx =>
    (not_read_of_prologue hx).2, List.nil_append, reads_turns hturn]

theorem reads_stock (t : Tid) : (reads (stock o t)).map (tile o) = (List.range o.kBlocks).flatMap
    (tilesRead o t) := by
  have hturn : ∀ k, reads (stockTurn o t k) = reads (compute V t k) := fun k => by
    rw [stockTurn, reads_append, reads_eq_nil fun x hx => (storeTiles_quiet hx).2, List.nil_append,
      ← List.singleton_append, reads_append, reads_append]
    exact List.append_nil _
  rw [stock, reads_turns hturn]

/-- What a thread has read at its end. -/
theorem log_finished {loc : Address → ℕ × Cell} {prog : Tid → List (Instr Address V)}
    (hfree : RaceFree loc prog writer (tile o)) {s : State Tid Address (ℕ × Cell) V}
    (h : Reached loc prog s)
    (hfin : Finished s) (t : Tid) : (s.threads t).log = (reads (prog t)).map (tile o) := by
  have hprog := ((h.inv hfree).threads t).program
  rw [hfin t, List.append_nil] at hprog
  rw [h.log hfree, hprog]

theorem barriers_pipe (t : Tid) : barriers (pipe o t) = o.kBlocks := barriers_upto t o.kBlocks

theorem barriers_stock (t : Tid) : barriers (stock o t) = 2 * o.kBlocks :=
  barriers_uptoStock t o.kBlocks

/-! ### Agreement -/

variable {A B C : Type*} (ops : Warp V A B C)

/-- **The pipelined loop is the stock loop**: in every interleaving each read gives the cell of the
tile of its k block, nothing is written to a stage while an older tile may be read there, the run
can come to its end, and then every thread has read the tiles in the order of the stock loop. -/
theorem pipe_eq_stock (o : Launch V) :
    (∀ s, Reached stageOf (pipe o) s →
      (∀ t, (s.threads t).log = (reads (s.threads t).done).map (tile o)) ∧
      (∀ i j, ∀ x ∈ (s.threads i).done, ∀ w ∈ x.writes, ∀ a, Instr.read a ∈ (s.threads j).rest →
        a.1 < w.1.1 → (stageOf w.1).1 ≠ (stageOf a).1) ∧
      (∀ i, ∀ e ∈ (s.threads i).flight, Instr.copy e.2.1 e.2.2 ∈ (s.threads i).done) ∧
      ∃ s', Relation.ReflTransGen (Step stageOf) s s' ∧ Finished s') ∧
    (∀ s, Reached bufferOf (stock o) s → ∃ s', Relation.ReflTransGen (Step bufferOf) s s' ∧
      Finished s') ∧
    ∀ s s', Reached stageOf (pipe o) s → Finished s → Reached bufferOf (stock o) s' → Finished s' →
      (∀ t, (s.threads t).log = (List.range o.kBlocks).flatMap (tilesRead o t) ∧
        (s'.threads t).log = (s.threads t).log) ∧
      fragments ops o.kBlocks (fun t => (s.threads t).log) =
        fragments ops o.kBlocks (fun t => (s'.threads t).log) := by
  refine ⟨fun s h => ?_, fun s h => ?_, fun s s' h hfin h' hfin' => ?_⟩
  · have hinv := h.inv (raceFree_pipe o)
    refine ⟨h.log (raceFree_pipe o), fun i j x hx w hw a ha hold => stage_free h hx hw ha hold,
      fun i e he => ?_, h.exists_finished (raceFree_pipe o)
        fun i j => by rw [barriers_pipe, barriers_pipe]⟩
    exact (mem_pending_append (l := []) ((hinv.threads i).flight e he)).resolve_left
      List.not_mem_nil
  · exact h.exists_finished (raceFree_stock o) fun i j => by rw [barriers_stock, barriers_stock]
  · have hlog : ∀ t, (s'.threads t).log = (s.threads t).log := fun t => by
      rw [log_finished (raceFree_pipe o) h hfin, log_finished (raceFree_stock o) h' hfin',
        reads_pipe, reads_stock]
    refine ⟨fun t => ⟨?_, hlog t⟩, ?_⟩
    · rw [log_finished (raceFree_pipe o) h hfin, reads_pipe]
    · simp only [hlog]

end Glm53Serve.Exl3.FatGemm
