import Glm53Serve.AdaptiveK.Verify

/-!
# The captured verify widths

At boot `_glm53_adaptive_k_query_lens` derives from the same environment the uniform decode
query lengths for which CUDA graphs are captured: `k + 1` for every candidate `k`. At run
time a draft trimmed to `n` tokens is verified with the query length `n + 1`.

## What is proved

* `mem_queryLens` — the captured lengths.
* `captured_iff_clampSafe` — a batch is trimmed to captured lengths exactly when no row
  clamps it to a length of its own: the rows that are shorter than the least candidate are
  what `apply` can go wrong on.
* `captured_run_iff` — the same for all batches of a run.
* `clampSafe_of_bootSet` — while no override shrinks the set, rows that reach the least
  candidate are safe.
-/

namespace Glm53Serve.AdaptiveK

open Py

/-- `_glm53_adaptive_k_query_lens(lens, decode_query_len)`; `none` is a `ValueError`. -/
def Env.queryLens {F : Type} (env : Env F) (lens : List ℤ) (decodeQueryLen : ℤ) :
    Option (List ℤ) :=
  let graphs := modeOn (word env.mode) || flagOn (word env.capture)
  if !graphs then some lens
  else
    (parseSet env.set).map fun ks =>
      let extra := (ks.map (· + 1)).filter fun q => 0 < q ∧ q ≤ decodeQueryLen
      sortedSet (lens ++ extra ++ [decodeQueryLen])

theorem mem_queryLens {F : Type} {env : Env F} {lens captured ks : List ℤ} {dql : ℤ}
    (hon : modeOn (word env.mode) = true) (hks : parseSet env.set = some ks)
    (h : env.queryLens lens dql = some captured) (q : ℤ) :
    q ∈ captured ↔ q ∈ lens ∨ (q - 1 ∈ ks ∧ 0 < q ∧ q ≤ dql) ∨ q = dql := by
  simp only [Env.queryLens, hon, Bool.true_or, Bool.not_true, Bool.false_eq_true, if_false, hks,
    Option.map_some, Option.some.injEq] at h
  rw [← h, mem_sortedSet]
  simp only [List.append_assoc, List.mem_append, List.mem_filter, List.mem_map, decide_eq_true_eq,
    List.mem_singleton]
  have hmap : (∃ a ∈ ks, a + 1 = q) ↔ q - 1 ∈ ks :=
    ⟨fun ⟨a, ha,
      hq⟩ => by rwa [← hq, add_sub_cancel_right], fun hq => ⟨q - 1, hq, sub_add_cancel q 1⟩⟩
  rw [hmap]

namespace Policy

variable {F : Type} [Number F] {p : Policy F} {captured : List ℤ} {reqs : List (Req × Bool)}

/-- If a draft was shortened, its query length was captured. -/
def ShapeCaptured (captured : List ℤ) (r r' : Req × Bool) : Prop :=
  draftLen r'.1 < draftLen r.1 → draftLen r'.1 + 1 ∈ captured

/-- A row for which the policy chooses. -/
def ObservedRow (p : Policy F) (r : Req × Bool) : Prop :=
  p.Observed r.1.requestId (draftLen r.1) r.2

/-- The row is observed and shorter than `min(k_set)`: its choice is its own length. -/
def Clamped (p : Policy F) (r : Req × Bool) : Prop :=
  p.ObservedRow r ∧ ∃ m, p.kSet.min? = some m ∧ draftLen r.1 < m

/-- The batch is trimmed to the observed rows: all are observed, or the batch margin is on
and none is structured. -/
def BatchTrims (p : Policy F) (reqs : List (Req × Bool)) : Prop :=
  (∀ r ∈ reqs, p.ObservedRow r) ∨ (p.batchMargin = true ∧ ∀ r ∈ reqs, r.2 = false)

/-- When the batch is trimmed, and no average overflows, the shortest observed row is not
clamped, or no row is longer, or its query length was captured. -/
def ClampSafe (p : Policy F) (captured : List ℤ) (reqs : List (Req × Bool)) : Prop :=
  p.Rounds reqs → p.BatchTrims reqs →
    ∀ a ∈ reqs, p.Clamped a → (∀ b ∈ reqs, p.ObservedRow b → draftLen a.1 ≤ draftLen b.1) →
      ∀ b ∈ reqs, draftLen a.1 < draftLen b.1 → draftLen a.1 + 1 ∈ captured

/-! ### One batch -/

theorem clamped_iff {r : Req × Bool} {v : ℤ} (hw : p.WellFormed)
    (h : p.choose r.1.requestId (draftLen r.1) r.2 = .ok (some v)) :
    p.Clamped r ∧ v = draftLen r.1 ∨ ¬ p.Clamped r ∧ v ∈ p.kSet ∧ v ≤ draftLen r.1 := by
  obtain ⟨hmem, hle⟩ | ⟨heq, hall⟩ := choose_bounds hw h
  · right
    refine ⟨?_, hmem, hle⟩
    rintro ⟨-, m, hm, hlt⟩
    have := (min?_spec hm).2 v hmem
    omega
  · left
    obtain ⟨target, n, hn, -⟩ := choose_candidate h
    have hmem := (candidate_spec hn).1
    obtain ⟨m, hm⟩ := Option.ne_none_iff_exists'.1
      (mt List.min?_eq_none_iff.1 (List.ne_nil_of_mem hmem))
    exact ⟨⟨(choose_ok_iff_observed h).1 (Option.some_ne_none v), m, hm, hall m (min?_spec hm).1⟩,
      heq⟩

theorem trims_iff {ps : List (Option ℤ)} (h : p.picks reqs = .ok ps) :
    p.Trims reqs ps ↔ p.BatchTrims reqs := by
  refine or_congr ⟨fun hn r hr => ?_, fun hall hn => ?_⟩ Iff.rfl
  · obtain ⟨c, hc, hch⟩ := picks_exists_choice h hr
    exact (choose_ok_iff_observed hch).1 fun h0 => hn (h0 ▸ hc)
  · obtain ⟨r, hr, hch⟩ := picks_exists_req h hn
    exact (choose_ok_iff_observed hch).2 (hall r hr) rfl

theorem rounds_of_picks {ps : List (Option ℤ)} (h : p.picks reqs = .ok ps) : p.Rounds reqs := by
  intro r hr ho ema observed hs
  obtain ⟨c, -, hch⟩ := picks_exists_choice h hr
  obtain ⟨ema', observed', hs', hc⟩ := choose_of_observed ho
  obtain ⟨rfl, rfl⟩ := Prod.mk.inj (Option.some.inj (hs.symm.trans hs'))
  rw [hch] at hc
  cases ht : Number.ceil (ema + p.margin) with
  | none => simp [ht] at hc
  | some target => rfl

/-- The width, when the shortest observed row is clamped, is the length of that row. -/
theorem width_clamped (hw : p.WellFormed) {ps : List (Option ℤ)} (h : p.picks reqs = .ok ps)
    (ht : p.BatchTrims reqs) {a : Req × Bool} (ha : a ∈ reqs) (hc : p.Clamped a)
    (hleast : ∀ b ∈ reqs, p.ObservedRow b → draftLen a.1 ≤ draftLen b.1) :
    p.width reqs ps = draftLen a.1 := by
  obtain ⟨c, hcmem, hch⟩ := picks_exists_choice h ha
  obtain ⟨v, rfl⟩ := Option.ne_none_iff_exists'.1 ((choose_ok_iff_observed hch).2 hc.1)
  obtain ⟨-, rfl⟩ : p.Clamped a ∧ v = draftLen a.1 := by
    obtain hok | ⟨hno, -⟩ := clamped_iff hw hch
    · exact hok
    · exact absurd hc hno
  obtain ⟨-, m, hm, hlt⟩ := hc
  have hmin := (min?_spec hm).2
  obtain ⟨n, ⟨hn, hle⟩, -, hwidth⟩ | ⟨-, -, hno⟩ :=
    p.width_cases reqs (picks_ne_nil h (List.ne_nil_of_mem ha))
  · have hna := hle _ hcmem
    have hn_eq : n = draftLen a.1 := by
      obtain ⟨b, hb, hbch⟩ := picks_exists_req h hn
      obtain ⟨-, rfl⟩ | ⟨-, hmem, -⟩ := clamped_iff hw hbch
      · have := hleast b hb ((choose_ok_iff_observed hbch).1 (Option.some_ne_none _))
        omega
      · have := hmin n hmem
        omega
    obtain heq | ⟨-, hwlt, hmem, -⟩ := hwidth
    · rw [heq, hn_eq]
    · have := hmin _ hmem
      omega
  · exact absurd hcmem (hno ((trims_iff h).2 ht) _)

/-- A width that trims a row is a candidate that fits a row, or the shortest observed row is
clamped and the width is its length. -/
theorem width_of_lt (hw : p.WellFormed) {ps : List (Option ℤ)} (h : p.picks reqs = .ok ps)
    {r : Req × Bool} (hr : r ∈ reqs) (hlt : p.width reqs ps < draftLen r.1) :
    p.width reqs ps ∈ p.kSet ∨
      p.BatchTrims reqs ∧ ∃ a ∈ reqs, p.Clamped a ∧ p.width reqs ps = draftLen a.1 ∧
        ∀ b ∈ reqs, p.ObservedRow b → draftLen a.1 ≤ draftLen b.1 := by
  obtain ⟨n, ⟨hn, hle⟩, ht, heq | ⟨-, -, hmem, -⟩⟩ | ⟨heq, -⟩ :=
    p.width_cases reqs (picks_ne_nil h (List.ne_nil_of_mem hr))
  · obtain ⟨a, ha, hch⟩ := picks_exists_req h hn
    rw [heq]
    obtain ⟨hc, rfl⟩ | ⟨-, hmem, -⟩ := clamped_iff hw hch
    · refine .inr ⟨(trims_iff h).1 ht, a, ha, hc, rfl, fun b hb ho => ?_⟩
      obtain ⟨c, hcmem, hbch⟩ := picks_exists_choice h hb
      obtain ⟨v, rfl⟩ := Option.ne_none_iff_exists'.1 ((choose_ok_iff_observed hbch).2 ho)
      exact (hle v hcmem).trans (choose_le hw hbch).2
    · exact .inl hmem
  · exact .inl hmem
  · have := le_maxLen hr
    omega

/-- A batch with drafts that fit the decode query length is trimmed to captured lengths exactly
when it is safe from clamping. -/
theorem captured_iff_clampSafe (hw : p.WellFormed) {dql : ℤ}
    (hcap : ∀ k ∈ p.bootSet, k + 1 ≤ dql → k + 1 ∈ captured)
    (hlen : ∀ r ∈ reqs, 0 < draftLen r.1 ∧ draftLen r.1 ≤ dql - 1)
    (file : Option (OverrideFile F)) (liveIds : ReqId → Bool) :
    List.Forall₂ (ShapeCaptured captured) reqs (p.apply file reqs liveIds).reqs ↔
      (p.refresh file).ClampSafe captured reqs := by
  have hkeep := p.refresh_keeps file
  have hwr := hw.keeps hkeep
  have hne : ∀ r ∈ reqs, r.1.specTokenIds ≠ [] := fun r hr =>
    List.length_pos_iff.1 (Int.natCast_pos.1 (hlen r hr).1)
  constructor
  · intro hall hrounds htrims a ha hc hleast b hb hab
    have hset : (p.refresh file).kSet ≠ [] := by
      obtain ⟨-, m, hm, -⟩ := hc
      exact List.ne_nil_of_mem (min?_spec hm).1
    obtain ⟨ps, hps⟩ := picks_ok hset hrounds
    have hwidth := width_clamped hwr hps htrims ha hc hleast
    obtain ⟨-, hoff | rfl | ⟨e, he⟩⟩ | ⟨-, -, ps', hps', hmap⟩ := p.apply_cases file reqs liveIds
    · rw [hc.1.1] at hoff
      exact absurd hoff.symm Bool.false_ne_true
    · simp at ha
    · rw [hps] at he
      cases he
    · obtain rfl : ps = ps' := by
        rw [hps] at hps'
        exact Except.ok.inj hps'
      rw [hmap, List.forall₂_map_right_iff, List.forall₂_same] at hall
      have hshape := hall b hb
      rw [ShapeCaptured, draftLen_trim (width_pos hwr hps (List.ne_nil_of_mem ha) hne).le, hwidth,
        min_eq_left hab.le] at hshape
      exact hshape hab
  · intro hsafe
    obtain ⟨hid, -⟩ | ⟨-, hreqs, ps, hps, hmap⟩ := p.apply_cases file reqs liveIds
    · rw [hid]
      exact List.forall₂_same.2 fun r hr hlt => absurd hlt (lt_irrefl _)
    · rw [hmap, List.forall₂_map_right_iff, List.forall₂_same]
      intro r hr
      rw [ShapeCaptured, draftLen_trim (width_pos hwr hps hreqs hne).le, min_lt_iff,
        or_iff_left (lt_irrefl _)]
      intro hlt
      rw [min_eq_left hlt.le]
      obtain hmem | ⟨ht, a, ha, hc, hwidth, hleast⟩ := width_of_lt hwr hps hr hlt
      · have := (hlen r hr).2
        exact hcap _ (hkeep.bootSet ▸ hwr.subset _ hmem) (by omega)
      · rw [hwidth] at hlt ⊢
        exact hsafe (rounds_of_picks hps) ht a ha hc hleast r hr hlt

/-- While the set is that of the boot, rows that reach its least element are safe. -/
theorem clampSafe_of_bootSet (hset : p.kSet = p.bootSet) {m : ℤ} (hm : p.bootSet.min? = some m)
    (hlen : ∀ r ∈ reqs, m ≤ draftLen r.1) : p.ClampSafe captured reqs := by
  rintro - - a ha ⟨-, m', hm', hlt⟩
  rw [hset, hm] at hm'
  obtain rfl := Option.some.inj hm'
  exact absurd hlt (not_lt.2 (hlen a ha))

/-! ### All batches of a run -/

/-- The batches of a run have drafts between the least candidate of the boot and the decode
query length. -/
def BatchesFit (p₀ : Policy F) (dql : ℤ) (ops : List (Op F)) : Prop :=
  ∀ file reqs liveIds, Op.apply file reqs liveIds ∈ ops → ∀ r ∈ reqs,
    (∃ m, p₀.bootSet.min? = some m ∧ m ≤ draftLen r.1) ∧ draftLen r.1 ≤ dql - 1

/-- Every width that a run trims to was captured at boot, exactly when every batch of the run
is safe from clamping. -/
theorem captured_run_iff {env : Env F} {file₀ : Option (OverrideFile F)} {p₀ : Policy F}
    (hboot : env.boot file₀ = some p₀) (hon : modeOn (word env.mode) = true)
    (hpos : ∀ kSet, parseSet env.set = some kSet → ∀ k ∈ kSet, 0 < k) {lens : List ℤ} {dql : ℤ}
    (hcap : env.queryLens lens dql = some captured) {ops : List (Op F)}
    (hfit : p₀.BatchesFit dql ops) :
    (∀ p file reqs liveIds, Run.Occurs step p₀ ops p (.apply file reqs liveIds) →
        List.Forall₂ (ShapeCaptured captured) reqs (p.apply file reqs liveIds).reqs) ↔
      ∀ p file reqs liveIds, Run.Occurs step p₀ ops p (.apply file reqs liveIds) →
        (p.refresh file).ClampSafe captured reqs := by
  have hp₀ := fromBoot_of_boot hboot hpos
  have hone : ∀ p file reqs liveIds, Run.Occurs step p₀ ops p (.apply file reqs liveIds) →
      (List.Forall₂ (ShapeCaptured captured) reqs (p.apply file reqs liveIds).reqs ↔
        (p.refresh file).ClampSafe captured reqs) := by
    intro p file reqs liveIds hocc
    have hp : FromBoot env p := Run.run_occurs (FromBoot env) (fun _ op h => h.step op) hp₀ hocc
    obtain ⟨es₁, es₂, rfl, -⟩ := hocc
    have hmem : ∀ k ∈ p.bootSet, k + 1 ≤ dql → k + 1 ∈ captured := by
      intro k hk hle
      have := hp.wellFormed.pos k hk
      rw [mem_queryLens hon hp.bootSet hcap]
      exact .inr (.inl ⟨by rwa [add_sub_cancel_right], by omega, hle⟩)
    refine captured_iff_clampSafe hp.wellFormed hmem (fun r hr => ?_) file liveIds
    obtain ⟨⟨m, hm, hle⟩, hub⟩ := hfit file reqs liveIds (by simp) r hr
    have := hp₀.wellFormed.pos m (min?_spec hm).1
    exact ⟨by omega, hub⟩
  exact forall₄_congr fun p file reqs liveIds => imp_congr_right (hone p file reqs liveIds)

/-- An override file with the set `7`. -/
def setSevenFile : OverrideFile ℚ :=
  ⟨1, some ⟨none, .missing, .missing, .missing, none, .val [7]⟩⟩

/-- The override is read, both requests are observed, and the draft of one is 5 tokens long. -/
def setSevenRun : List (Op ℚ) :=
  .reload (some setSevenFile) :: defaultRun ++
    [.apply (some setSevenFile)
      [(⟨['a'], [1, 2, 3, 4, 5]⟩, false), (⟨['b'], [11, 12, 13, 14, 15, 16, 17]⟩, false)]
      fun _ => true]

theorem setSevenRun_fit :
    ((defaultEnv.boot none).get defaultEnv_boots).BatchesFit 8 setSevenRun := by
  intro file reqs liveIds hmem r hr
  have hset : ((defaultEnv.boot none).get defaultEnv_boots).bootSet.min? = some 2 := by
    decide +kernel
  simp only [setSevenRun, defaultRun, List.cons_append, List.nil_append, List.mem_cons,
    List.not_mem_nil, reduceCtorEq, Op.apply.injEq, false_or, or_false] at hmem
  obtain ⟨-, rfl, -⟩ := hmem
  refine ⟨⟨2, hset, ?_⟩, ?_⟩ <;> revert r <;> decide

theorem captured_run_iff_default :
    (∀ p file reqs liveIds,
        Run.Occurs step ((defaultEnv.boot none).get defaultEnv_boots) setSevenRun p
          (.apply file reqs liveIds) →
        List.Forall₂ (ShapeCaptured [3, 5, 8]) reqs (p.apply file reqs liveIds).reqs) ↔
      ∀ p file reqs liveIds,
        Run.Occurs step ((defaultEnv.boot none).get defaultEnv_boots) setSevenRun p
          (.apply file reqs liveIds) →
        (p.refresh file).ClampSafe [3, 5, 8] reqs :=
  captured_run_iff (Option.some_get defaultEnv_boots).symm (by decide) defaultEnv_pos
    (by decide : defaultEnv.queryLens [8] 8 = some [3, 5, 8]) setSevenRun_fit

/-- With the set `7` read from the override file the draft of 7 tokens is trimmed to 5, and the
query length 6 is not captured. -/
theorem setSeven_uncaptured :
    defaultEnv.queryLens [8] 8 = some [3, 5, 8] ∧
      ((defaultEnv.boot none).get defaultEnv_boots).BatchesFit 8 setSevenRun ∧
      ¬ ∀ p file reqs liveIds,
        Run.Occurs step ((defaultEnv.boot none).get defaultEnv_boots) setSevenRun p
          (.apply file reqs liveIds) →
        List.Forall₂ (ShapeCaptured [3, 5, 8]) reqs (p.apply file reqs liveIds).reqs := by
  refine ⟨by decide, setSevenRun_fit, fun h => ?_⟩
  have hlast := h _ _ _ _ ⟨.reload (some setSevenFile) :: defaultRun, [], rfl, rfl⟩
  have hreqs : ((Run.run step ((defaultEnv.boot none).get defaultEnv_boots)
      (.reload (some setSevenFile) :: defaultRun)).apply (some setSevenFile)
        [(⟨['a'], [1, 2, 3, 4, 5]⟩, false), (⟨['b'], [11, 12, 13, 14, 15, 16, 17]⟩, false)]
        fun _ => true).reqs =
      [(⟨['a'], [1, 2, 3, 4, 5]⟩, false), (⟨['b'], [11, 12, 13, 14, 15]⟩, false)] := by
    decide +kernel
  rw [hreqs] at hlast
  simp [ShapeCaptured, draftLen] at hlast

end Policy

end Glm53Serve.AdaptiveK
