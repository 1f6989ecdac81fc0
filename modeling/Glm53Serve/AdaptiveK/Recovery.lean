import Glm53Serve.AdaptiveK.Monotone

/-!
# Trimming recovers

A trimmed request has fewer drafts to accept, which lowers the average that the next width
is chosen by. A fully accepted observation counts as `k_max` or more instead, so that no
sequence of trims is absorbing.

## The model

The operations of the policy module at the rationals. In `StaysFull` operations the request
has full acceptance and stays live, and no new override file appears; the other requests, the
batches and the widths they are trimmed to are arbitrary.

## What is proved

* `Recovering.step` — what a fully accepted observation does to the gap below `k_max`.
* `choose_recovers` — after enough of them the choice is the largest candidate, and remains so.
-/

namespace Glm53Serve.AdaptiveK.Policy

open Average

/-! ### Operations at full acceptance -/

/-- The operation observes the request. -/
def observes (reqId : ReqId) : Op ℚ → Bool
  | .observe r _ _ => r = reqId
  | _ => false

/-- The request's observations are of drafts that were all accepted, the request is live, and
the override file is the one that was read. -/
def StaysFull (reqId : ReqId) (mtime : Option ℤ) : Op ℚ → Prop
  | .observe r numDraft numAccepted => r = reqId → 0 < numDraft ∧ numDraft ≤ numAccepted
  | .reload file => file.map (·.mtime) = mtime
  | .apply file _ liveIds => file.map (·.mtime) = mtime ∧ liveIds reqId = true

/-- What choosing for a request reads, its average apart. -/
structure SameSettings (p q : Policy ℚ) : Prop where
  enabled : q.enabled = p.enabled
  alpha : q.alpha = p.alpha
  margin : q.margin = p.margin
  minSteps : q.minSteps = p.minSteps
  saturate : q.saturate = p.saturate
  kSet : q.kSet = p.kSet
  kMax : q.kMax = p.kMax
  fileMtime : q.fileMtime = p.fileMtime

theorem SameSettings.refl (p : Policy ℚ) : p.SameSettings p :=
  ⟨rfl, rfl, rfl, rfl, rfl, rfl, rfl, rfl⟩

theorem SameSettings.trans {p q r : Policy ℚ} (h : p.SameSettings q) (h' : q.SameSettings r) :
    p.SameSettings r :=
  ⟨h'.1.trans h.1, h'.2.trans h.2, h'.3.trans h.3, h'.4.trans h.4, h'.5.trans h.5, h'.6.trans h.6,
    h'.7.trans h.7, h'.8.trans h.8⟩

theorem sameSettings_withState (p : Policy ℚ) (state : ReqId → Option (ℚ × ℚ)) :
    p.SameSettings (p.withState state) := ⟨rfl, rfl, rfl, rfl, rfl, rfl, rfl, rfl⟩

/-- A file that was read already is not read again. -/
theorem reload_of_mtime {p : Policy ℚ} {file : Option (OverrideFile ℚ)}
    (h : file.map (·.mtime) = p.fileMtime) : p.reload file = p := by
  simp only [reload, reloadEnd]
  split_ifs
  · rfl
  · rfl

theorem refresh_of_mtime {p : Policy ℚ} {file : Option (OverrideFile ℚ)}
    (h : file.map (·.mtime) = p.fileMtime) : p.refresh file = p := by
  rw [refresh, reload_of_mtime h, ite_self]

theorem count_of_live {p : Policy ℚ} {n : ℤ} {liveIds : ReqId → Bool} {reqId : ReqId}
    (h : liveIds reqId = true) :
    p.SameSettings (p.count n liveIds) ∧ (p.count n liveIds).state reqId = p.state reqId := by
  simp only [count]
  split_ifs
  · exact ⟨⟨rfl, rfl, rfl, rfl, rfl, rfl, rfl, rfl⟩, if_pos h⟩
  · exact ⟨⟨rfl, rfl, rfl, rfl, rfl, rfl, rfl, rfl⟩, rfl⟩

/-- A batch, whatever it is trimmed to, leaves the settings and the averages of live requests. -/
theorem apply_of_live {p : Policy ℚ} {file : Option (OverrideFile ℚ)} (reqs : List (Req × Bool))
    {liveIds : ReqId → Bool} {reqId : ReqId} (hf : file.map (·.mtime) = p.fileMtime)
    (h : liveIds reqId = true) :
    p.SameSettings (p.apply file reqs liveIds).policy ∧
      (p.apply file reqs liveIds).policy.state reqId = p.state reqId := by
  simp only [apply, refresh_of_mtime hf]
  split
  · exact ⟨⟨rfl, rfl, rfl, rfl, rfl, rfl, rfl, rfl⟩, rfl⟩
  · split
    · exact ⟨.refl p, rfl⟩
    · exact count_of_live h

/-- An operation that does not observe the request. -/
theorem step_of_not_observes {p : Policy ℚ} {reqId : ReqId} {op : Op ℚ}
    (hf : StaysFull reqId p.fileMtime op) (ho : observes reqId op = false) :
    p.SameSettings (p.step op) ∧ (p.step op).state reqId = p.state reqId := by
  cases op with
  | observe r d a =>
    have hne : reqId ≠ r := fun he => by simp [observes, he] at ho
    by_cases hon : p.enabled = true ∧ 0 < d
    · rw [step, observe_eq hon]
      exact ⟨sameSettings_withState p _, Function.update_of_ne hne _ _⟩
    · rw [step, observe_off hon]
      exact ⟨.refl p, rfl⟩
  | reload file =>
    rw [step, reload_of_mtime hf]
    exact ⟨.refl p, rfl⟩
  | apply file reqs liveIds => exact apply_of_live reqs hf.1 hf.2

/-! ### The gap below `k_max` -/

/-- `q` has the settings of `p`, and after `m` more observations of the request its average is
at most `gap * (1 - alpha) ^ m` below `k_max`. -/
structure Recovering (p : Policy ℚ) (reqId : ReqId) (gap base : ℚ) (m : ℕ)
    (q : Policy ℚ) : Prop where
  settings : p.SameSettings q
  state : (q.state reqId = none ∧ m = 0 ∧ base ≤ 0) ∨
    ∃ e n, q.state reqId = some (e, n) ∧ p.kMax - gap * (1 - p.alpha) ^ m ≤ e ∧ base + m ≤ n

theorem exists_recovering (p : Policy ℚ) (reqId : ReqId) :
    ∃ gap base : ℚ, 0 ≤ gap ∧ Recovering p reqId gap base 0 p := by
  cases hs : p.state reqId with
  | none => exact ⟨0, 0, le_rfl, .refl p, .inl ⟨hs, rfl, le_rfl⟩⟩
  | some st =>
    refine ⟨|p.kMax - st.1|, st.2, abs_nonneg _, .refl p, .inr ⟨st.1, st.2, hs, ?_, ?_⟩⟩
    · rw [pow_zero, mul_one]
      linarith [le_abs_self ((p.kMax : ℚ) - st.1)]
    · rw [Nat.cast_zero, add_zero]

/-- All drafts accepted measures `k_max` or more. -/
theorem le_measured {p : Policy ℚ} (hsat : p.saturate ≠ ['n']) {numDraft numAccepted : ℤ}
    (h : numDraft ≤ numAccepted) : (p.kMax : ℚ) ≤ p.measured numDraft numAccepted := by
  rw [measured, if_pos ⟨h, hsat⟩]
  exact_mod_cast le_max_left _ _

section
variable {p : Policy ℚ} {reqId : ReqId} {gap base : ℚ}

/-- One operation at full acceptance. -/
theorem Recovering.step (hon : p.enabled = true) (hsat : p.saturate ≠ ['n']) (h₀ : 0 ≤ p.alpha)
    (h₁ : p.alpha ≤ 1) (hgap : 0 ≤ gap) {m : ℕ} {q : Policy ℚ} (h : Recovering p reqId gap base m q)
    {op : Op ℚ} (hf : StaysFull reqId p.fileMtime op) :
    Recovering p reqId gap base (m + if observes reqId op then 1 else 0) (q.step op) := by
  obtain ⟨hset, hst⟩ := h
  cases ho : observes reqId op with
  | false =>
    obtain ⟨hset', hst'⟩ := step_of_not_observes (hset.fileMtime ▸ hf) ho
    refine ⟨hset.trans hset', ?_⟩
    rw [hst']
    exact hst
  | true =>
    cases op with
    | observe r d a =>
      obtain rfl : r = reqId := by simpa [observes] using ho
      obtain ⟨hd, ha⟩ := hf rfl
      have honq : q.enabled = true ∧ 0 < d := ⟨hset.enabled ▸ hon, hd⟩
      have hx : (p.kMax : ℚ) ≤ q.measured d a := by
        rw [← hset.kMax]
        exact le_measured (hset.saturate ▸ hsat) ha
      rw [step, observe_eq honq]
      refine ⟨hset.trans (sameSettings_withState q _), .inr ⟨_, _, Function.update_self .., ?_⟩⟩
      obtain ⟨hs, rfl, hb⟩ | ⟨e, n, hs, he, hn⟩ := hst
      · rw [hs]
        simp only [hset.alpha, hset.kMax, if_true]
        refine ⟨?_, by push_cast; linarith⟩
        calc (p.kMax : ℚ) - gap * (1 - p.alpha) ^ (0 + 1)
            ≤ p.kMax - 0 * (1 - p.alpha) := by
              rw [zero_add, pow_one]
              linarith [mul_nonneg hgap (sub_nonneg.2 h₁)]
          _ ≤ move p.alpha (q.measured d a) p.kMax := gap_move h₀ h₁ hx (by rw [sub_zero])
      · rw [hs]
        simp only [hset.alpha, if_true]
        refine ⟨?_, by push_cast; linarith⟩
        rw [pow_succ, ← mul_assoc]
        exact gap_move h₀ h₁ hx he
    | reload file => simp [observes] at ho
    | apply file reqs liveIds => simp [observes] at ho

/-- A run of operations at full acceptance. -/
theorem Recovering.run (hon : p.enabled = true) (hsat : p.saturate ≠ ['n']) (h₀ : 0 ≤ p.alpha)
    (h₁ : p.alpha ≤ 1) (hgap : 0 ≤ gap) {ops : List (Op ℚ)} :
    ∀ {m : ℕ} {q : Policy ℚ}, Recovering p reqId gap base m q →
      (∀ op ∈ ops, StaysFull reqId p.fileMtime op) →
      Recovering p reqId gap base (m + ops.countP (observes reqId))
        (Run.run Policy.step q ops) := by
  induction ops with
  | nil => exact fun h _ => h
  | cons op ops ih =>
    intro m q h hf
    have hstep := h.step hon hsat h₀ h₁ hgap (hf op List.mem_cons_self)
    have hrest := ih hstep fun op' hop' => hf op' (List.mem_cons_of_mem _ hop')
    rwa [Run.run_cons, List.countP_cons, add_comm (List.countP _ _), ← add_assoc]

/-- An average less than one below `k_max`, over `min_steps` observations or more, chooses the
largest candidate. -/
theorem choose_of_high {q : Policy ℚ} {K : ℤ} (hK : q.kSet.max? = some K) (hpos : 0 < K)
    (hle : K ≤ q.kMax) (hon : q.enabled = true) (hmargin : 0 ≤ q.margin) {e n : ℚ}
    (hs : q.state reqId = some (e, n)) (he : (q.kMax : ℚ) - 1 < e)
    (hn : (q.minSteps : ℚ) ≤ n) {k : ℤ}
    (hk : K ≤ k) : q.choose reqId k false = .ok (some K) := by
  obtain ⟨hKmem, hKmax⟩ := List.max?_eq_some_iff.1 hK
  obtain ⟨e', n', hs', hc⟩ := choose_exact
    (⟨hon, rfl, hpos.trans_le hk, e, n, hs, not_lt.2 hn⟩ : q.Observed reqId k false)
  obtain ⟨rfl, rfl⟩ := Prod.mk.inj (Option.some.inj (hs.symm.trans hs'))
  have htarget : q.kMax ≤ ⌈e + q.margin⌉ := by
    have hlt : q.kMax - 1 < ⌈e + q.margin⌉ := Int.lt_ceil.2 (by push_cast; linarith)
    omega
  have hcand : q.candidate ⌈e + q.margin⌉ k = some K := by
    have hall : q.kSet.filter (· ≤ min ⌈e + q.margin⌉ k) = q.kSet := by
      refine List.filter_eq_self.2 fun v hv => decide_eq_true ?_
      exact le_min ((hKmax v hv).trans (hle.trans htarget)) ((hKmax v hv).trans hk)
    simp only [candidate, hall]
    rw [if_neg (List.ne_nil_of_mem hKmem), hK]
  rw [hc, hcand, chosen, min_eq_left hk, max_eq_right (show 1 ≤ K by omega)]

/-- Enough observations at full acceptance, in any run of other operations. -/
theorem exists_recovered (hon : p.enabled = true) (hsat : p.saturate ≠ ['n']) (h₀ : 0 < p.alpha)
    (h₁ : p.alpha ≤ 1) (hmargin : 0 ≤ p.margin) {K : ℤ} (hK : p.kSet.max? = some K) (hpos : 0 < K)
    (hle : K ≤ p.kMax) (reqId : ReqId) :
    ∃ N : ℕ, ∀ ops : List (Op ℚ), (∀ op ∈ ops, StaysFull reqId p.fileMtime op) →
      N ≤ ops.countP (observes reqId) →
      ∀ k, K ≤ k → (Run.run step p ops).choose reqId k false = .ok (some K) := by
  obtain ⟨gap, base, hgap, hrec⟩ := exists_recovering p reqId
  obtain ⟨n₁, hn₁⟩ := exists_gap_lt h₀ h₁ hgap one_pos
  obtain ⟨n₂, hn₂⟩ := exists_nat_ge ((p.minSteps : ℚ) - base)
  refine ⟨max (max n₁ n₂) 1, fun ops hf hN k hk => ?_⟩
  obtain ⟨hset, hst⟩ := hrec.run hon hsat h₀.le h₁ hgap hf
  rw [zero_add] at hst
  obtain ⟨-, hzero, -⟩ | ⟨e, n, hs, he, hn⟩ := hst
  · omega
  have hgap₁ := hn₁ _ (((le_max_left n₁ n₂).trans (le_max_left _ 1)).trans hN)
  have hobs : (n₂ : ℚ) ≤ ops.countP (observes reqId) := by
    exact_mod_cast ((le_max_right n₁ n₂).trans (le_max_left _ 1)).trans hN
  refine choose_of_high (hset.kSet ▸ hK) hpos (hset.kMax ▸ hle) (hset.enabled ▸ hon)
    (hset.margin ▸ hmargin) hs ?_ ?_ hk
  · rw [hset.kMax]
    linarith
  · rw [hset.minSteps]
    linarith

end

/-! ### From a boot -/

theorem run_keeps (p : Policy ℚ) (ops : List (Op ℚ)) : p.Keeps (Run.run step p ops) :=
  Run.run_invariant (fun q => p.Keeps q) (fun q op hq => hq.trans (q.step_keeps op)) (.refl p) ops

/-- From every state that a run from a boot with a positive set reaches, some number of fully
accepted observations of a request is enough for the choice to be the largest candidate, for
as long as acceptance stays full and whatever the batches are trimmed to. -/
theorem choose_recovers {env : Env ℚ} {file : Option (OverrideFile ℚ)} {p₀ p : Policy ℚ}
    (hboot : env.boot file = some p₀)
    (hset : ∀ kSet, parseSet env.set = some kSet → ∀ k ∈ kSet, 0 < k) (ops : List (Op ℚ))
    (hp : p = Run.run step p₀ ops) (hon : p.enabled = true) (hsat : p.saturate = ['m', 'a', 'x'])
    (h₀ : 0 < p.alpha) (h₁ : p.alpha ≤ 1) (hmargin : 0 ≤ p.margin) {K : ℤ}
    (hK : p.kSet.max? = some K) (reqId : ReqId) :
    ∃ N : ℕ, ∀ ops : List (Op ℚ), (∀ op ∈ ops, StaysFull reqId p.fileMtime op) →
      N ≤ ops.countP (observes reqId) →
      ∀ k, K ≤ k → (Run.run step p ops).choose reqId k false = .ok (some K) := by
  have hw : p.WellFormed := hp ▸ (run_fromBoot hboot hset ops).wellFormed
  have hkeeps : p₀.Keeps p := hp ▸ run_keeps p₀ ops
  obtain ⟨hKmem, -⟩ := List.max?_eq_some_iff.1 hK
  have hKboot := hw.subset K hKmem
  have hmax : K ≤ p.kMax := by
    rw [hkeeps.kMax, (boot_spec hboot).2.2.1, ← hkeeps.bootSet]
    cases hm : p.bootSet.max? with
    | none => rw [List.max?_eq_none_iff.1 hm] at hKboot; cases hKboot
    | some m => exact (List.max?_eq_some_iff.1 hm).2 K hKboot
  exact exists_recovered hon (by rw [hsat]; decide) h₀ h₁ hmargin hK (hw.pos K hKboot) hmax reqId

/-- The default policy recovers from a request's two observations with nothing accepted. -/
theorem choose_recovers_default :
    ∃ N : ℕ, ∀ ops : List (Op ℚ),
      (∀ op ∈ ops, StaysFull ['r']
        (Run.run step defaultPolicy [.observe ['r'] 7 0, .observe ['r'] 2 0]).fileMtime op) →
      N ≤ ops.countP (observes ['r']) →
      ∀ k, 7 ≤ k → (Run.run step (Run.run step defaultPolicy
        [.observe ['r'] 7 0, .observe ['r'] 2 0]) ops).choose ['r'] k false = .ok (some 7) :=
  choose_recovers (Option.some_get defaultEnv_boots).symm defaultEnv_pos
    [.observe ['r'] 7 0, .observe ['r'] 2 0] rfl (by decide +kernel) (by decide +kernel)
    (by decide +kernel) (by decide +kernel) (by decide +kernel) (by decide +kernel) ['r']

end Glm53Serve.AdaptiveK.Policy
