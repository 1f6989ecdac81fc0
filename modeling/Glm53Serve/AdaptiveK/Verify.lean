import Glm53Serve.AdaptiveK.Policy
import Glm53Serve.Lib.MapM

/-!
# The verified prefix

`apply` trims the drafts of a batch to one width. The width is the least choice of the
batch, clamped by the pos trim, or the least known choice when the batch margin fires, or
the length of the longest draft, which trims nothing.

## What is proved

* `choose_bounds` — a known choice is a candidate that fits the row, or the row's own length
  when no candidate fits.
* `width_cases` — the three kinds of width.
* `apply_verifyPrefix` — after every run, `apply` leaves non-empty prefixes, changes nothing
  when the policy is off or a request is structured, and leaves rows of one length when
  every choice is known.
-/

namespace Glm53Serve.AdaptiveK

open Py

namespace Policy

/-! ### Choices -/

theorem min?_spec {l : List ℤ} {n : ℤ} (h : l.min? = some n) : n ∈ l ∧ ∀ v ∈ l, n ≤ v :=
  List.min?_eq_some_iff.1 h

variable {F : Type} [Number F] {p : Policy F}

/-- The request has been observed for `min_steps` steps, and the policy may choose for it. -/
def Observed (p : Policy F) (reqId : ReqId) (k : ℤ) (structured : Bool) : Prop :=
  p.enabled = true ∧ structured = false ∧ 0 < k ∧
    ∃ ema observed, p.state reqId = some (ema, observed) ∧ ¬ observed < (p.minSteps : F)

theorem choose_of_not_observed {reqId : ReqId} {k : ℤ} {structured : Bool}
    (h : ¬ p.Observed reqId k structured) : p.choose reqId k structured = .ok none := by
  rw [choose]
  split_ifs with hk
  · rfl
  have hk' : p.enabled = true ∧ structured = false ∧ 0 < k := by
    revert hk
    cases p.enabled <;> cases structured <;> simp
  cases hs : p.state reqId with
  | none => rfl
  | some st =>
    obtain ⟨ema, observed⟩ := st
    have ho : observed < (p.minSteps : F) := by
      by_contra ho
      exact h ⟨hk'.1, hk'.2.1, hk'.2.2, ema, observed, hs, ho⟩
    simp only [ho, if_true]

theorem choose_of_observed {reqId : ReqId} {k : ℤ} {structured : Bool}
    (h : p.Observed reqId k structured) :
    ∃ ema observed, p.state reqId = some (ema, observed) ∧
      p.choose reqId k structured =
        match Number.ceil (ema + p.margin) with
        | none => .error .ceil
        | some target =>
          match p.candidate target k with
          | none => .error .emptySet
          | some n => .ok (some (max 1 (min n k))) := by
  obtain ⟨he, rfl, hk, ema, observed, hs, ho⟩ := h
  refine ⟨ema, observed, hs, ?_⟩
  rw [choose, if_neg (by simp [he, hk]), hs]
  exact if_neg ho

/-- A choice is known exactly for the observed requests. -/
theorem choose_ok_iff_observed {reqId : ReqId} {k : ℤ} {structured : Bool} {c : Option ℤ}
    (h : p.choose reqId k structured = .ok c) : c ≠ none ↔ p.Observed reqId k structured := by
  by_cases ho : p.Observed reqId k structured
  · refine iff_of_true ?_ ho
    rintro rfl
    obtain ⟨ema, observed, -, hc⟩ := choose_of_observed ho
    rw [hc] at h
    repeat' split at h
    all_goals simp at h
  · rw [choose_of_not_observed ho, Except.ok.injEq] at h
    exact iff_of_false (fun hc => hc h.symm) ho

/-- A known choice is the candidate under the rounded average, cut to the row. -/
theorem choose_target {reqId : ReqId} {k v : ℤ} {structured : Bool}
    (h : p.choose reqId k structured = .ok (some v)) :
    ∃ target n, p.candidate target k = some n ∧ v = max 1 (min n k) ∧
      ((p.state reqId).bind fun st => Number.ceil (st.1 + p.margin)) = some target := by
  obtain ⟨ema, observed, hs, hc⟩ :=
    choose_of_observed ((choose_ok_iff_observed h).1 (Option.some_ne_none v))
  rw [hc] at h
  cases ht : Number.ceil (ema + p.margin) with
  | none => simp [ht] at h
  | some target =>
    cases hn : p.candidate target k with
    | none => simp [ht, hn] at h
    | some n =>
      simp only [ht, hn, Except.ok.injEq, Option.some.injEq] at h
      exact ⟨target, n, hn, h.symm, by rw [hs, Option.bind_some, ht]⟩

/-- A known choice is a candidate, cut to the row. -/
theorem choose_candidate {reqId : ReqId} {k v : ℤ} {structured : Bool}
    (h : p.choose reqId k structured = .ok (some v)) :
    ∃ target n, p.candidate target k = some n ∧ v = max 1 (min n k) := by
  obtain ⟨target, n, hn, hv, -⟩ := choose_target h
  exact ⟨target, n, hn, hv⟩

omit [Number F] in
/-- A candidate is at most `k` when one is. -/
theorem candidate_spec {target k n : ℤ} (h : p.candidate target k = some n) :
    n ∈ p.kSet ∧ (k < n → ∀ m ∈ p.kSet, k < m) := by
  simp only [candidate] at h
  split_ifs at h
  · obtain ⟨hmem, hle⟩ := min?_spec h
    exact ⟨hmem, fun hk m hm => lt_of_lt_of_le hk (hle m hm)⟩
  · have hmem := List.max?_mem h
    rw [List.mem_filter, decide_eq_true_eq] at hmem
    exact ⟨hmem.1, fun hk => absurd hmem.2 (by omega)⟩

/-- A known choice fits the row; it is a candidate, or no candidate fits the row and the
choice is the row. -/
theorem choose_bounds (hw : p.WellFormed) {reqId : ReqId} {k v : ℤ} {structured : Bool}
    (h : p.choose reqId k structured = .ok (some v)) :
    (v ∈ p.kSet ∧ v ≤ k) ∨ (v = k ∧ ∀ m ∈ p.kSet, k < m) := by
  have hk := ((choose_ok_iff_observed h).1 (Option.some_ne_none v)).2.2.1
  obtain ⟨target, n, hn, rfl⟩ := choose_candidate h
  obtain ⟨hmem, hfit⟩ := candidate_spec hn
  have hpos := hw.pos n (hw.subset n hmem)
  obtain hnk | hkn := le_or_gt n k
  · left
    rw [min_eq_left hnk, max_eq_right (by omega)]
    exact ⟨hmem, hnk⟩
  · right
    rw [min_eq_right hkn.le, max_eq_right (by omega)]
    exact ⟨rfl, hfit hkn⟩

theorem choose_le (hw : p.WellFormed) {reqId : ReqId} {k v : ℤ} {structured : Bool}
    (h : p.choose reqId k structured = .ok (some v)) : 0 < v ∧ v ≤ k := by
  obtain ⟨hmem, hle⟩ | ⟨rfl, -⟩ := choose_bounds hw h
  · exact ⟨hw.pos v (hw.subset v hmem), hle⟩
  · exact ⟨((choose_ok_iff_observed h).1 (Option.some_ne_none v)).2.2.1, le_rfl⟩

theorem picks_ok_iff {reqs : List (Req × Bool)} {ps : List (Option ℤ)} :
    p.picks reqs = .ok ps ↔
      List.Forall₂ (fun r c => p.choose r.1.requestId (draftLen r.1) r.2 = .ok c) reqs ps :=
  Except.mapM_ok_iff

/-- Every average that the choices of the batch round up is a number. -/
def Rounds (p : Policy F) (reqs : List (Req × Bool)) : Prop :=
  ∀ r ∈ reqs, p.Observed r.1.requestId (draftLen r.1) r.2 →
    ∀ ema observed, p.state r.1.requestId = some (ema, observed) →
      (Number.ceil (ema + p.margin)).isSome = true

omit [Number F] in
theorem candidate_isSome (h : p.kSet ≠ []) (target k : ℤ) : ∃ n, p.candidate target k = some n := by
  simp only [candidate]
  split_ifs with hc
  · exact Option.ne_none_iff_exists'.1 (mt List.min?_eq_none_iff.1 h)
  · exact Option.ne_none_iff_exists'.1 (mt List.max?_eq_none_iff.1 hc)

theorem picks_ok {reqs : List (Req × Bool)} (h : p.kSet ≠ []) (hr : p.Rounds reqs) :
    ∃ ps, p.picks reqs = .ok ps := by
  have hex : ∀ r ∈ reqs, ∃ c, p.choose r.1.requestId (draftLen r.1) r.2 = .ok c := by
    intro r hmem
    by_cases ho : p.Observed r.1.requestId (draftLen r.1) r.2
    · obtain ⟨ema, observed, hs, hc⟩ := choose_of_observed ho
      obtain ⟨target, ht⟩ := Option.isSome_iff_exists.1 (hr r hmem ho ema observed hs)
      obtain ⟨n, hn⟩ := candidate_isSome h target (draftLen r.1)
      exact ⟨some (max 1 (min n (draftLen r.1))), by simp only [hc, ht, hn]⟩
    · exact ⟨none, choose_of_not_observed ho⟩
  choose! f hf using hex
  exact ⟨reqs.map f, picks_ok_iff.2 (List.forall₂_map_right_iff.2 (List.forall₂_same.2 hf))⟩

/-! ### Widths -/

/-- `n` is the least known choice. -/
def LeastChoice (ps : List (Option ℤ)) (n : ℤ) : Prop := some n ∈ ps ∧ ∀ v, some v ∈ ps → n ≤ v

theorem leastChoice_of_min? {ps : List (Option ℤ)} {n : ℤ} (h : (ps.filterMap id).min? = some n) :
    LeastChoice ps n := by
  obtain ⟨hmem, hle⟩ := min?_spec h
  simp only [List.mem_filterMap, id_eq, exists_eq_right] at hmem hle
  exact ⟨hmem, hle⟩

theorem no_choice_of_min? {ps : List (Option ℤ)} (h : (ps.filterMap id).min? = none) (v : ℤ) :
    some v ∉ ps := by
  rw [List.min?_eq_none_iff, List.filterMap_eq_nil_iff] at h
  exact fun hv => Option.some_ne_none v (h _ hv)

/-- The batch is trimmed to its known choices: all are known, or the batch margin fires. -/
def Trims (p : Policy F) (reqs : List (Req × Bool)) (ps : List (Option ℤ)) : Prop :=
  none ∉ ps ∨ (p.batchMargin = true ∧ ∀ r ∈ reqs, r.2 = false)

omit [Number F] in
theorem posWidth_spec {reqs : List (Req × Bool)} {ps : List (Option ℤ)} {n w : ℤ}
    (h : p.posWidth reqs ps n = some w) : w < n ∧ w ∈ p.kSet ∧ ∀ m ∈ p.kSet, w ≤ m := by
  simp only [posWidth] at h
  split_ifs at h with _ _ _ _ hlt
  cases hm : p.kSet.min? with
  | none => simp [hm] at hlt
  | some m =>
    rw [hm, Option.getD_some] at hlt h
    rw [min_eq_right hlt.le] at h
    obtain rfl := Option.some.inj h
    exact ⟨hlt, min?_spec hm⟩

omit [Number F] in
/-- The width is the least known choice, or the least candidate below it, or trims nothing. -/
theorem width_cases (reqs : List (Req × Bool)) {ps : List (Option ℤ)} (hne : ps ≠ []) :
    (∃ n, LeastChoice ps n ∧ p.Trims reqs ps ∧
      (p.width reqs ps = n ∨ (none ∉ ps ∧ p.width reqs ps < n ∧ p.width reqs ps ∈ p.kSet ∧
        ∀ m ∈ p.kSet, p.width reqs ps ≤ m))) ∨
      (p.width reqs ps = maxLen reqs ∧ none ∈ ps ∧ (p.Trims reqs ps → ∀ v, some v ∉ ps)) := by
  rw [width]
  split_ifs with hall
  · have hnone : none ∉ ps := fun h => by simpa using List.all_eq_true.1 hall none h
    obtain ⟨v, hv⟩ : ∃ v, some v ∈ ps := by
      obtain ⟨c, hc⟩ := List.exists_mem_of_ne_nil ps hne
      cases c with
      | none => exact absurd hc hnone
      | some v => exact ⟨v, hc⟩
    cases hm : (ps.filterMap id).min? with
    | none => exact absurd hv (no_choice_of_min? hm v)
    | some n =>
      left
      refine ⟨n, leastChoice_of_min? hm, .inl hnone, ?_⟩
      simp only [Option.getD_some]
      cases hw : p.posWidth reqs ps n with
      | none => exact .inl rfl
      | some w => exact .inr ⟨hnone, posWidth_spec hw⟩
  · have hnone : none ∈ ps := by
      rw [List.all_eq_true] at hall
      push Not at hall
      obtain ⟨c, hc, hcn⟩ := hall
      cases c with
      | none => exact hc
      | some v => exact absurd rfl hcn
    rw [marginWidth]
    split_ifs with hmar
    · right
      refine ⟨rfl, hnone, ?_⟩
      rintro (h | ⟨hb, hs⟩)
      · exact absurd hnone h
      · simp only [hb, Bool.not_true, Bool.false_or, List.any_eq_true] at hmar
        obtain ⟨r, hr, hs'⟩ := hmar
        simp [hs r hr] at hs'
    · simp only [Bool.or_eq_true, Bool.not_eq_true', List.any_eq_true, not_or, not_exists, not_and,
        Bool.not_eq_false, Bool.not_eq_true] at hmar
      cases hm : (ps.filterMap id).min? with
      | none => exact .inr ⟨rfl, hnone, fun _ => no_choice_of_min? hm⟩
      | some n => exact .inl ⟨n, leastChoice_of_min? hm, .inr hmar, .inl rfl⟩

/-! ### Trimming -/

theorem sliceTo_of_nonneg {α : Type*} (l : List α) {n : ℤ} (h : 0 ≤ n) :
    sliceTo l n = l.take n.toNat := by
  rw [sliceTo, if_pos h]

theorem draftLen_trim {n : ℤ} (h : 0 ≤ n) (r : Req × Bool) :
    draftLen (trim n r).1 = min n (draftLen r.1) := by
  rw [trim]
  split_ifs with hlt
  · simp only [draftLen, sliceTo_of_nonneg _ h, List.length_take] at hlt ⊢
    omega
  · omega

/-- A trimmed draft is a prefix of the draft. -/
structure Trimmed (r r' : Req × Bool) : Prop where
  requestId : r'.1.requestId = r.1.requestId
  structured : r'.2 = r.2
  prefixOf : r'.1.specTokenIds <+: r.1.specTokenIds
  nonempty : r'.1.specTokenIds ≠ []

theorem trimmed_trim {n : ℤ} (h : 0 < n) {r : Req × Bool} (hr : r.1.specTokenIds ≠ []) :
    Trimmed r (trim n r) := by
  rw [trim]
  split_ifs
  · refine ⟨rfl, rfl, ?_, ?_⟩
    · rw [sliceTo_of_nonneg _ h.le]
      exact List.take_prefix _ _
    · rw [sliceTo_of_nonneg _ h.le, Ne, List.take_eq_nil_iff]
      rintro (h0 | h0)
      · omega
      · exact hr h0
  · exact ⟨rfl, rfl, List.prefix_refl _, hr⟩

theorem le_maxLen {reqs : List (Req × Bool)} {r : Req × Bool} (h : r ∈ reqs) :
    draftLen r.1 ≤ maxLen reqs := by
  rw [maxLen]
  induction reqs with
  | nil => simp at h
  | cons r' reqs ih =>
    rw [List.map_cons, List.foldr_cons]
    obtain rfl | h := List.mem_cons.1 h
    · exact le_max_left _ _
    · exact (ih h).trans (le_max_right _ _)

theorem map_trim_eq_self {reqs : List (Req × Bool)} {n : ℤ} (h : ∀ r ∈ reqs, draftLen r.1 ≤ n) :
    reqs.map (trim n) = reqs := by
  have hid : ∀ r ∈ reqs, trim n r = id r := fun r hr => if_neg (not_lt.2 (h r hr))
  rw [List.map_congr_left hid, List.map_id]

/-- `apply` returns when every average that it rounds up is a number and there is a candidate. -/
theorem apply_raised {file : Option (OverrideFile F)} {reqs : List (Req × Bool)}
    (hset : (p.refresh file).kSet ≠ []) (hnum : (p.refresh file).Rounds reqs)
    (liveIds : ReqId → Bool) : (p.apply file reqs liveIds).raised = none := by
  obtain ⟨ps, hps⟩ := picks_ok hset hnum
  simp only [apply, hps]
  split_ifs <;> rfl

/-- What `apply` does to the batch: nothing, when the policy is off or a choice raises, and
else it trims to the width. -/
theorem apply_cases (p : Policy F) (file : Option (OverrideFile F)) (reqs : List (Req × Bool))
    (liveIds : ReqId → Bool) :
    (p.apply file reqs liveIds).reqs = reqs ∧
        ((p.refresh file).enabled = false ∨ reqs = [] ∨
          ∃ e, (p.refresh file).picks reqs = .error e) ∨
      (p.refresh file).enabled = true ∧ reqs ≠ [] ∧ ∃ ps, (p.refresh file).picks reqs = .ok ps ∧
        (p.apply file reqs liveIds).reqs = reqs.map (trim ((p.refresh file).width reqs ps)) := by
  simp only [apply]
  split_ifs with hoff
  · simp only [Bool.or_eq_true, Bool.not_eq_true', List.isEmpty_iff] at hoff
    exact .inl ⟨rfl, hoff.imp_right .inl⟩
  · simp only [Bool.or_eq_true, Bool.not_eq_true', List.isEmpty_iff, not_or, Bool.not_eq_false]
      at hoff
    cases hp : (p.refresh file).picks reqs with
    | error e => exact .inl ⟨rfl, .inr (.inr ⟨e, rfl⟩)⟩
    | ok ps => exact .inr ⟨hoff.1, hoff.2, ps, rfl, rfl⟩

/-! ### Verify-prefix safety -/

section Picks

variable {reqs : List (Req × Bool)} {ps : List (Option ℤ)}

theorem picks_ne_nil (h : p.picks reqs = .ok ps) (hne : reqs ≠ []) : ps ≠ [] := by
  rintro rfl
  exact hne (List.forall₂_nil_right_iff.1 (picks_ok_iff.1 h))

theorem picks_exists_req (h : p.picks reqs = .ok ps) {c : Option ℤ} (hc : c ∈ ps) :
    ∃ r ∈ reqs, p.choose r.1.requestId (draftLen r.1) r.2 = .ok c := by
  obtain ⟨i, hi, rfl⟩ := List.getElem_of_mem hc
  have hf := picks_ok_iff.1 h
  exact ⟨_, List.getElem_mem (hf.length_eq ▸ hi), hf.get _ hi⟩

theorem picks_exists_choice (h : p.picks reqs = .ok ps) {r : Req × Bool} (hr : r ∈ reqs) :
    ∃ c ∈ ps, p.choose r.1.requestId (draftLen r.1) r.2 = .ok c := by
  obtain ⟨i, hi, rfl⟩ := List.getElem_of_mem hr
  have hf := picks_ok_iff.1 h
  exact ⟨_, List.getElem_mem (hf.length_eq ▸ hi), hf.get hi _⟩

/-- The batch is trimmed only when no request of it is structured. -/
theorem not_structured_of_trims (h : p.picks reqs = .ok ps) (ht : p.Trims reqs ps) {r : Req × Bool}
    (hr : r ∈ reqs) : r.2 = false := by
  obtain hn | ⟨-, hs⟩ := ht
  · obtain ⟨c, hc, hch⟩ := picks_exists_choice h hr
    exact ((choose_ok_iff_observed hch).1 fun h0 => hn (h0 ▸ hc)).2.1
  · exact hs r hr

/-- A width below a row is positive. -/
theorem width_pos (hw : p.WellFormed) (h : p.picks reqs = .ok ps) (hne : reqs ≠ [])
    (hlen : ∀ r ∈ reqs, r.1.specTokenIds ≠ []) : 0 < p.width reqs ps := by
  obtain ⟨n, ⟨hn, -⟩, -, heq | ⟨-, -, hmem, -⟩⟩ | ⟨heq, -⟩ :=
    p.width_cases reqs (picks_ne_nil h hne)
  · obtain ⟨r, -, hc⟩ := picks_exists_req h hn
    rw [heq]
    exact (choose_le hw hc).1
  · exact hw.pos _ (hw.subset _ hmem)
  · obtain ⟨r, hr⟩ := List.exists_mem_of_ne_nil reqs hne
    rw [heq]
    refine lt_of_lt_of_le ?_ (le_maxLen hr)
    exact Int.natCast_pos.2 (List.length_pos_iff.2 (hlen r hr))

/-- With a structured request nothing is trimmed. -/
theorem width_structured (h : p.picks reqs = .ok ps) {r : Req × Bool} (hr : r ∈ reqs)
    (hs : r.2 = true) : p.width reqs ps = maxLen reqs := by
  obtain ⟨n, -, ht, -⟩ | ⟨heq, -⟩ := p.width_cases reqs (picks_ne_nil h (List.ne_nil_of_mem hr))
  · rw [not_structured_of_trims h ht hr] at hs
    exact absurd hs Bool.false_ne_true
  · exact heq

/-- When every choice is known, the width fits every row. -/
theorem width_le (hw : p.WellFormed) (h : p.picks reqs = .ok ps) (hall : none ∉ ps) {r : Req × Bool}
    (hr : r ∈ reqs) : p.width reqs ps ≤ draftLen r.1 := by
  obtain ⟨c, hc, hch⟩ := picks_exists_choice h hr
  cases c with
  | none => exact absurd hc hall
  | some v =>
    have hv := (choose_le hw hch).2
    obtain ⟨n, ⟨-, hle⟩, -, heq | ⟨-, hlt, -⟩⟩ | ⟨-, hn, -⟩ :=
      p.width_cases reqs (picks_ne_nil h (List.ne_nil_of_mem hr))
    · exact heq.le.trans ((hle v hc).trans hv)
    · exact hlt.le.trans ((hle v hc).trans hv)
    · exact absurd hn hall

end Picks

/-- The batch `reqs'` that the policy `q` leaves of `reqs`: of every draft a non-empty prefix;
no request changed when the policy is off or a request is structured; and drafts of one length
when every request has a known choice. -/
structure VerifySafe (q : Policy F) (reqs reqs' : List (Req × Bool)) : Prop where
  trimmed : List.Forall₂ Trimmed reqs reqs'
  held : q.enabled = false ∨ (∃ r ∈ reqs, r.2 = true) → reqs' = reqs
  uniform : (∀ r ∈ reqs, ∃ v, q.choose r.1.requestId (draftLen r.1) r.2 = .ok (some v)) →
    ∀ r ∈ reqs', ∀ s ∈ reqs', draftLen r.1 = draftLen s.1

/-- Trimming to the width is safe. -/
theorem verifySafe_width (hw : p.WellFormed) (hon : p.enabled = true) {reqs : List (Req × Bool)}
    {ps : List (Option ℤ)} (hps : p.picks reqs = .ok ps) (hreqs : reqs ≠ [])
    (hne : ∀ r ∈ reqs, r.1.specTokenIds ≠ []) :
    VerifySafe p reqs (reqs.map (trim (p.width reqs ps))) := by
  have hwpos := width_pos hw hps hreqs hne
  refine ⟨List.forall₂_map_right_iff.2 (List.forall₂_same.2 fun r hr =>
    trimmed_trim hwpos (hne r hr)), ?_, fun hall => ?_⟩
  · rintro (hoff | ⟨r, hr, hs⟩)
    · rw [hon] at hoff
      exact absurd hoff.symm Bool.false_ne_true
    · rw [width_structured hps hr hs]
      exact map_trim_eq_self fun r hr => le_maxLen hr
  · have hnone : none ∉ ps := by
      intro hn
      obtain ⟨r, hr, hc⟩ := picks_exists_req hps hn
      obtain ⟨v, hv⟩ := hall r hr
      rw [hv] at hc
      cases hc
    have hlen : ∀ r ∈ reqs.map (trim (p.width reqs ps)), draftLen r.1 = p.width reqs ps := by
      intro r' hr'
      obtain ⟨r, hr, rfl⟩ := List.mem_map.1 hr'
      rw [draftLen_trim hwpos.le, min_eq_left (width_le hw hps hnone hr)]
    intro r hr s hs
    rw [hlen r hr, hlen s hs]

/-- Leaving the batch is safe when the policy is off or a choice raises. -/
theorem verifySafe_self {reqs : List (Req × Bool)} (hne : ∀ r ∈ reqs, r.1.specTokenIds ≠ [])
    (hwhy : p.enabled = false ∨ reqs = [] ∨ ∃ e, p.picks reqs = .error e) :
    VerifySafe p reqs reqs := by
  refine ⟨List.forall₂_same.2 fun r hr => ⟨rfl, rfl, List.prefix_refl _, hne r hr⟩, fun _ => rfl,
    fun hall r hr => ?_⟩
  obtain ⟨v, hv⟩ := hall r hr
  obtain hoff | rfl | ⟨e, he⟩ := hwhy
  · rw [((choose_ok_iff_observed hv).1 (Option.some_ne_none v)).1] at hoff
    exact absurd hoff.symm Bool.false_ne_true
  · simp at hr
  · choose! f hf using hall
    have hok : p.picks reqs = .ok (reqs.map fun r => some (f r)) :=
      picks_ok_iff.2 (List.forall₂_map_right_iff.2 (List.forall₂_same.2 hf))
    rw [hok] at he
    cases he

/-- Verify-prefix safety, after every run from a boot with a positive set: `apply` treats every
batch safely, the policy being as its own reload leaves it, and it returns where the averages
that it rounds up are numbers and the set is not empty. -/
theorem apply_verifyPrefix {env : Env F} {file₀ : Option (OverrideFile F)} {p₀ : Policy F}
    (hboot : env.boot file₀ = some p₀)
    (hpos : ∀ kSet, parseSet env.set = some kSet → ∀ k ∈ kSet, 0 < k) (ops : List (Op F))
    (file : Option (OverrideFile F)) (reqs : List (Req × Bool)) (liveIds : ReqId → Bool)
    (hne : ∀ r ∈ reqs, r.1.specTokenIds ≠ []) :
    let p := Run.run step p₀ ops
    VerifySafe (p.refresh file) reqs (p.apply file reqs liveIds).reqs ∧
      (p.bootSet ≠ [] → (p.refresh file).Rounds reqs →
        (p.apply file reqs liveIds).raised = none) := by
  intro p
  have hw : (p.refresh file).WellFormed :=
    (run_fromBoot hboot hpos ops).wellFormed.keeps (p.refresh_keeps file)
  refine ⟨?_, fun hb hr =>
    apply_raised (hw.nonempty ((p.refresh_keeps file).bootSet ▸ hb)) hr liveIds⟩
  obtain ⟨hid, hwhy⟩ | ⟨hon, hreqs, ps, hps, hmap⟩ := p.apply_cases file reqs liveIds
  · rw [hid]
    exact verifySafe_self hne hwhy
  · rw [hmap]
    exact verifySafe_width hw hon hps hreqs hne

/-- Four observations of two requests, of which one draft and five drafts are accepted. -/
def defaultRun : List (Op ℚ) :=
  [.observe ['a'] 7 1, .observe ['b'] 7 5, .observe ['a'] 7 1, .observe ['b'] 7 5,
    .observe ['a'] 7 1, .observe ['b'] 7 5, .observe ['a'] 7 1, .observe ['b'] 7 5]

/-- The batch of the two requests. -/
def defaultBatch : List (Req × Bool) :=
  [(⟨['a'], [1, 2, 3, 4, 5, 6, 7]⟩, false), (⟨['b'], [11, 12, 13, 14, 15, 16, 17]⟩, false)]

theorem apply_verifyPrefix_default :
    let p := Run.run step ((defaultEnv.boot none).get defaultEnv_boots) defaultRun
    VerifySafe (p.refresh none) defaultBatch (p.apply none defaultBatch fun _ => true).reqs ∧
      (p.apply none defaultBatch fun _ => true).reqs =
        [(⟨['a'], [1, 2, 3, 4]⟩, false), (⟨['b'], [11, 12, 13, 14]⟩, false)] :=
  ⟨(apply_verifyPrefix (Option.some_get defaultEnv_boots).symm defaultEnv_pos defaultRun none
    defaultBatch (fun _ => true) (by decide)).1, by decide +kernel⟩

end Policy

end Glm53Serve.AdaptiveK
