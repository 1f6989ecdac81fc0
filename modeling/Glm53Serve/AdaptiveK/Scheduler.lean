import Glm53Serve.AdaptiveK.Policy

/-!
# The override file while the scheduler runs

`update_draft_token_ids` stores the new drafts and collects the requests that have one for
`apply`, which reads the override file again on every fiftieth step. It collects only while
the policy is enabled.

## The model

The scheduler as far as the policy sees it: the policy, the requests, and the override file
on disk. `should_advance(request)` and the request's `grammar.validate_tokens` belong to
vLLM and come with the request. An exception of `apply` leaves `update_draft_token_ids` and
ends the run.

## What is proved

* `collected_eq` — which requests are collected.
* `updates_sync` — while the policy is enabled, fifty updates with a draft read the file.
* `run_disabled` — a disabled policy never changes again.
* `live_iff_enabled` — so the override file is live exactly while the policy is enabled.
-/

namespace Glm53Serve.AdaptiveK

open Py

/-- A request of the scheduler. -/
structure Request where
  specTokenIds : List ℤ
  isFinished : Bool
  isPrefillChunk : Bool
  /-- `structured_output_manager.should_advance(request)`. -/
  shouldAdvance : Bool
  /-- `request.structured_output_request.grammar.validate_tokens`. -/
  validateTokens : List ℤ → List ℤ

/-- The scheduler, and the override file. -/
structure Scheduler (F : Type) where
  policy : Policy F
  requests : ReqId → Option Request
  file : Option (OverrideFile F)

namespace Scheduler

variable {F : Type} [Number F]

/-! ### `update_draft_token_ids` -/

/-- The draft that is stored for a live request: a structured one validates it. -/
def storedDraft (r : Request) (tokens : List ℤ) : List ℤ :=
  if r.shouldAdvance then r.validateTokens tokens else tokens

/-- The body of the loop: the requests, and those collected for `apply`. -/
def collect (enabled : Bool) (acc : (ReqId → Option Request) × List (ReqId × Bool))
    (draft : ReqId × List ℤ) : (ReqId → Option Request) × List (ReqId × Bool) :=
  match acc.1 draft.1 with
  | none => acc
  | some r =>
    if r.isFinished then acc
    else if r.isPrefillChunk then
      if r.specTokenIds ≠ [] then
        (Function.update acc.1 draft.1 (some { r with specTokenIds := [] }), acc.2)
      else acc
    else
      let tokens := storedDraft r draft.2
      (Function.update acc.1 draft.1 (some { r with specTokenIds := tokens }),
        if enabled ∧ tokens ≠ [] then acc.2 ++ [(draft.1, r.shouldAdvance)] else acc.2)

/-- The collected requests as `apply` sees them, after the loop. -/
def batch (requests : ReqId → Option Request) (collected : List (ReqId × Bool)) :
    List (Req × Bool) :=
  collected.map fun (reqId, structured) =>
    (⟨reqId, ((requests reqId).map (·.specTokenIds)).getD []⟩, structured)

/-- `apply` writes the drafts through the requests. -/
def writeBack (requests : ReqId → Option Request) (reqs : List (Req × Bool)) :
    ReqId → Option Request :=
  reqs.foldl (fun rs r => Function.update rs r.1.requestId
    ((rs r.1.requestId).map fun q => { q with specTokenIds := r.1.specTokenIds })) requests

/-- `update_draft_token_ids(draft_token_ids)`; `none` is an exception. -/
def updateDraftTokenIds (w : Scheduler F) (drafts : List (ReqId × List ℤ)) : Option (Scheduler F) :=
  let (requests, akReqs) := drafts.foldl (collect w.policy.enabled) (w.requests, [])
  if akReqs = [] then some { w with requests := requests }
  else
    let out := w.policy.apply w.file (batch requests akReqs) fun reqId => (requests reqId).isSome
    match out.raised with
    | some _ => none
    | none => some { w with policy := out.policy, requests := writeBack requests out.reqs }

/-! ### Runs -/

/-- What happens to the scheduler: someone writes or removes the override file, a step of the
engine observes accepted drafts, schedules requests, or brings new drafts. -/
inductive Op (F : Type) where
  | write (file : Option (OverrideFile F))
  | observe (reqId : ReqId) (numDraft numAccepted : ℤ)
  | schedule (requests : ReqId → Option Request)
  | update (drafts : List (ReqId × List ℤ))

/-- The scheduler after an operation. -/
def step (w : Scheduler F) : Op F → Option (Scheduler F)
  | .write file => some { w with file := file }
  | .observe reqId numDraft numAccepted =>
    some { w with policy := w.policy.observe reqId numDraft numAccepted }
  | .schedule requests => some { w with requests := requests }
  | .update drafts => w.updateDraftTokenIds drafts

/-- The scheduler after the operations, none of which raised. -/
def run (w : Scheduler F) (ops : List (Op F)) : Option (Scheduler F) := ops.foldlM step w

/-- The request is live, not a prefill chunk, and gets a draft. -/
def takesDraft (requests : ReqId → Option Request) (draft : ReqId × List ℤ) : Bool :=
  match requests draft.1 with
  | none => false
  | some r => !r.isFinished && !r.isPrefillChunk && storedDraft r draft.2 ≠ []

/-- The override file is written or removed. -/
def Op.isWrite : Op F → Bool
  | .write _ => true
  | _ => false

/-- An update with a draft for a live, non-prefill request. -/
def Op.carriesDraft (requests : ReqId → Option Request) : Op F → Bool
  | .update drafts => drafts.any (takesDraft requests)
  | _ => false

/-- How many updates of a run carry a draft. -/
def updates : Scheduler F → List (Op F) → ℕ
  | _, [] => 0
  | w, op :: ops =>
    (if op.carriesDraft w.requests then 1 else 0) +
      match w.step op with
      | none => 0
      | some v => v.updates ops

/-- The file that is on disk has been read. -/
def Synced (w : Scheduler F) : Prop := w.policy.fileMtime = w.file.map (·.mtime)

/-! ### What is collected -/

/-- A turn of the loop changes no more of the requests than their drafts, and collects the
request exactly when the policy is enabled and the request takes the draft. -/
theorem collect_spec (enabled : Bool) (rs : ReqId → Option Request) (acc : List (ReqId × Bool))
    (d : ReqId × List ℤ) :
    takesDraft (collect enabled (rs, acc) d).1 = takesDraft rs ∧
      ∃ s, (collect enabled (rs, acc) d).2 =
        if enabled && takesDraft rs d then acc ++ [(d.1, s)] else acc := by
  cases hr : rs d.1 with
  | none => simp [collect, takesDraft, hr]
  | some r =>
    obtain ⟨old, finished, prefill, advance, validate⟩ := r
    have hupd : ∀ tokens, takesDraft (Function.update rs d.1
        (some ⟨tokens, finished, prefill, advance, validate⟩)) = takesDraft rs := by
      intro tokens
      funext e
      by_cases he : e.1 = d.1
      · simp [takesDraft, he, hr, storedDraft]
      · simp only [takesDraft, Function.update_of_ne he]
    cases finished
    · cases prefill
      · exact ⟨by simpa [collect, hr] using hupd _, advance, by simp [collect, takesDraft, hr]⟩
      · refine ⟨?_, advance, ?_⟩
        · by_cases ho : old = []
          · simp [collect, hr, ho]
          · simpa [collect, hr, ho] using hupd []
        · by_cases ho : old = [] <;> simp [collect, takesDraft, hr, ho]
    · simp [collect, takesDraft, hr]

/-- Nothing is collected exactly when the policy is off or no request takes a draft. -/
theorem collected_eq_nil_iff (enabled : Bool) (drafts : List (ReqId × List ℤ)) :
    ∀ acc : (ReqId → Option Request) × List (ReqId × Bool),
      (drafts.foldl (collect enabled) acc).2 = [] ↔
        acc.2 = [] ∧ (enabled && drafts.any (takesDraft acc.1)) = false := by
  induction drafts with
  | nil => intro acc; simp
  | cons d drafts ih =>
    intro acc
    obtain ⟨hrs, s, hacc⟩ := collect_spec enabled acc.1 acc.2 d
    rw [List.foldl_cons, ih, hrs, hacc, List.any_cons]
    cases enabled <;> cases takesDraft acc.1 d <;> simp

/-- An update that calls `apply`, and one that does not. -/
theorem update_cases {w v : Scheduler F} {drafts : List (ReqId × List ℤ)}
    (h : w.updateDraftTokenIds drafts = some v) :
    v.file = w.file ∧
      ((w.policy.enabled && drafts.any (takesDraft w.requests)) = false ∧ v.policy = w.policy ∨
        (w.policy.enabled && drafts.any (takesDraft w.requests)) = true ∧
          ∃ reqs liveIds, (w.policy.apply w.file reqs liveIds).raised = none ∧
            v.policy = (w.policy.apply w.file reqs liveIds).policy) := by
  have hnil := collected_eq_nil_iff w.policy.enabled drafts (w.requests, [])
  simp only [updateDraftTokenIds] at h
  generalize drafts.foldl (collect w.policy.enabled) (w.requests, []) = res at h hnil
  obtain ⟨requests, akReqs⟩ := res
  simp only at h hnil
  split_ifs at h with hc
  · obtain rfl := Option.some.inj h
    exact ⟨rfl, .inl ⟨(hnil.1 hc).2, rfl⟩⟩
  · split at h
    · simp at h
    · rename_i hraised
      obtain rfl := Option.some.inj h
      refine ⟨rfl, .inr ⟨?_, _, _, hraised, rfl⟩⟩
      rw [← Bool.not_eq_false]
      exact fun hf => hc (hnil.2 ⟨trivial, hf⟩)

/-! ### One step -/

/-- The policies agree on what decides about reloads. -/
structure SameFlags (p q : Policy F) : Prop where
  enabled : q.enabled = p.enabled
  bootEnabled : q.bootEnabled = p.bootEnabled
  fileMtime : q.fileMtime = p.fileMtime
  steps : q.steps = p.steps

/-- An operation leaves the flags, or it is an update that calls `apply`. -/
theorem step_cases {w v : Scheduler F} {op : Op F} (h : w.step op = some v) :
    (w.policy.enabled && op.carriesDraft w.requests) = false ∧ SameFlags w.policy v.policy ∨
      (w.policy.enabled && op.carriesDraft w.requests) = true ∧ v.file = w.file ∧
        v.policy.enabled = (w.policy.refresh w.file).enabled ∧
        v.policy.bootEnabled = w.policy.bootEnabled ∧
        v.policy.fileMtime = (w.policy.refresh w.file).fileMtime ∧
        v.policy.steps = w.policy.steps + 1 := by
  cases op with
  | write file =>
    obtain rfl := Option.some.inj h
    exact .inl ⟨Bool.and_false _, rfl, rfl, rfl, rfl⟩
  | observe reqId numDraft numAccepted =>
    obtain rfl := Option.some.inj h
    obtain ⟨he, hm, hs⟩ := w.policy.observe_spec reqId numDraft numAccepted
    exact .inl ⟨Bool.and_false _, he, (w.policy.observe_keeps _ _ _).bootEnabled, hm, hs⟩
  | schedule requests =>
    obtain rfl := Option.some.inj h
    exact .inl ⟨Bool.and_false _, rfl, rfl, rfl, rfl⟩
  | update drafts =>
    obtain ⟨hfile, ⟨hoff, hp⟩ | ⟨hon, reqs, liveIds, hraised, hp⟩⟩ := update_cases h
    · rw [hp]
      exact .inl ⟨hoff, rfl, rfl, rfl, rfl⟩
    · obtain ⟨he, hm, hs⟩ := w.policy.apply_spec w.file reqs liveIds hraised
      rw [← hp] at he hm hs
      refine .inr ⟨hon, hfile, he, ?_, hm, ?_⟩
      · rw [hp, (w.policy.apply_keeps w.file reqs liveIds).bootEnabled]
      · rw [hs, Policy.refresh_steps]

/-- Only a write makes the file on disk another one than the one that was read. -/
theorem synced_step {w v : Scheduler F} {op : Op F} (hop : op.isWrite = false)
    (h : w.step op = some v) (hs : w.Synced) : v.Synced := by
  have hfile : v.file = w.file := by
    cases op with
    | write file => simp [Op.isWrite] at hop
    | observe reqId numDraft numAccepted => obtain rfl := Option.some.inj h; rfl
    | schedule requests => obtain rfl := Option.some.inj h; rfl
    | update drafts => exact (update_cases h).1
  rw [Synced, hfile]
  obtain ⟨-, hsame⟩ | ⟨-, -, -, -, hm, -⟩ := step_cases h
  · rw [hsame.fileMtime]
    exact hs
  · rw [hm]
    exact Policy.refresh_synced hs

theorem run_cons (w : Scheduler F) (op : Op F) (ops : List (Op F)) :
    w.run (op :: ops) = (w.step op).bind (run · ops) := List.foldlM_cons

theorem synced_run {ops : List (Op F)} (hops : ∀ op ∈ ops, op.isWrite = false) :
    ∀ {w v : Scheduler F}, w.run ops = some v → w.Synced → v.Synced := by
  induction ops with
  | nil =>
    intro w v h hs
    obtain rfl := Option.some.inj h
    exact hs
  | cons op ops ih =>
    intro w v h hs
    rw [run_cons, Option.bind_eq_some_iff] at h
    obtain ⟨u, hu, hv⟩ := h
    exact ih (fun o ho => hops o (List.mem_cons_of_mem _ ho)) hv
      (synced_step (hops op List.mem_cons_self) hu hs)

/-! ### Liveness -/

/-- The override file is live: every run with fifty updates that carry a draft reads it on the
way, and if it is not written again it has been read in the end. -/
def Live (w : Scheduler F) : Prop :=
  ∀ ops v, w.run ops = some v → 50 ≤ w.updates ops →
    (∃ ops₁ ops₂ u, ops = ops₁ ++ ops₂ ∧ w.run ops₁ = some u ∧ u.Synced) ∧
      ((∀ op ∈ ops, op.isWrite = false) → v.Synced)

/-- The updates that carry a draft until the next reload, while the policy is enabled. -/
def untilReload (p : Policy F) : ℕ := (50 - p.steps % 50) % 50

/-- While the policy is enabled, the update after `untilReload` many reads the file. -/
theorem updates_sync : ∀ (ops : List (Op F)) {w v : Scheduler F}, w.policy.bootEnabled = true →
    w.policy.enabled = true → w.run ops = some v → untilReload w.policy < w.updates ops →
      ∃ ops₁ ops₂ u, ops = ops₁ ++ ops₂ ∧ w.run ops₁ = some u ∧ u.Synced := by
  intro ops
  induction ops with
  | nil => intro w v _ _ _ h; simp [updates] at h
  | cons op ops ih =>
    intro w v hb he hrun hn
    rw [run_cons, Option.bind_eq_some_iff] at hrun
    obtain ⟨u, hu, hv⟩ := hrun
    have hlater : (∃ ops₁ ops₂ x, ops = ops₁ ++ ops₂ ∧ u.run ops₁ = some x ∧ x.Synced) →
        ∃ ops₁ ops₂ x, op :: ops = ops₁ ++ ops₂ ∧ w.run ops₁ = some x ∧ x.Synced := by
      rintro ⟨ops₁, ops₂, x, rfl, hx, hs⟩
      exact ⟨op :: ops₁, ops₂, x, rfl, by rw [run_cons, hu]; exact hx, hs⟩
    simp only [updates, hu] at hn
    obtain ⟨hoff, hsame⟩ | ⟨hon, hfile, hen, hboot, hm, hsteps⟩ := step_cases hu
    · rw [he, Bool.true_and] at hoff
      rw [hoff, if_neg Bool.false_ne_true, zero_add] at hn
      refine hlater (ih (hsame.bootEnabled.trans hb) (hsame.enabled.trans he) hv ?_)
      rwa [untilReload, hsame.steps]
    · rw [he, Bool.true_and] at hon
      rw [if_pos hon] at hn
      by_cases h50 : w.policy.steps % 50 = 0
      · refine ⟨[op], ops, u, rfl, by rw [run_cons, hu]; rfl, ?_⟩
        rw [Synced, hm, hfile, Policy.refresh, if_pos h50,
          (w.policy.reload_fileMtime w.file).1, if_pos hb]
      · rw [Policy.refresh, if_neg h50] at hen
        refine hlater (ih (hboot.trans hb) (hen.trans he) hv ?_)
        rw [untilReload] at hn ⊢
        omega

theorem live_of_enabled {w : Scheduler F} (hb : w.policy.bootEnabled = true)
    (he : w.policy.enabled = true) : w.Live := by
  intro ops v hrun hn
  have hlt : untilReload w.policy < w.updates ops :=
    lt_of_lt_of_le (Nat.mod_lt _ (by decide)) hn
  obtain ⟨ops₁, ops₂, u, rfl, hu, hs⟩ := updates_sync ops hb he hrun hlt
  refine ⟨⟨ops₁, ops₂, u, rfl, hu, hs⟩, fun hops => ?_⟩
  rw [run, List.foldlM_append] at hrun
  obtain ⟨u', hu', hv⟩ := Option.bind_eq_some_iff.1 hrun
  obtain rfl : u = u' := Option.some.inj (hu.symm.trans hu')
  exact synced_run (fun op ho => hops op (List.mem_append_right _ ho)) hv hs

/-- A disabled policy never reads the override file again, nor does it change otherwise. -/
theorem run_disabled : ∀ (ops : List (Op F)) {w v : Scheduler F}, w.policy.enabled = false →
    w.run ops = some v → SameFlags w.policy v.policy := by
  intro ops
  induction ops with
  | nil =>
    intro w v _ h
    obtain rfl := Option.some.inj h
    exact ⟨rfl, rfl, rfl, rfl⟩
  | cons op ops ih =>
    intro w v he h
    rw [run_cons, Option.bind_eq_some_iff] at h
    obtain ⟨u, hu, hv⟩ := h
    obtain ⟨-, h₁⟩ | ⟨hon, -⟩ := step_cases hu
    · have h₂ := ih (h₁.enabled.trans he) hv
      exact ⟨h₂.enabled.trans h₁.enabled, h₂.bootEnabled.trans h₁.bootEnabled,
        h₂.fileMtime.trans h₁.fileMtime, h₂.steps.trans h₁.steps⟩
    · rw [he, Bool.false_and] at hon
      exact absurd hon Bool.false_ne_true

/-- While the policy is disabled an update stores the drafts and does nothing else. -/
theorem update_disabled {w : Scheduler F} (he : w.policy.enabled = false) (d : ReqId × List ℤ) :
    ∃ v, w.step (.update [d]) = some v ∧ v.policy = w.policy ∧ v.file = w.file ∧
      takesDraft v.requests = takesDraft w.requests := by
  have hnil := (collected_eq_nil_iff w.policy.enabled [d] (w.requests, [])).2
    ⟨rfl, by rw [he, Bool.false_and]⟩
  refine ⟨{ w with requests := (collect w.policy.enabled (w.requests, []) d).1 }, ?_, rfl, rfl,
    (collect_spec _ _ _ _).1⟩
  rw [List.foldl_cons, List.foldl_nil] at hnil
  simp only [step, updateDraftTokenIds, List.foldl_cons, List.foldl_nil, hnil, if_true]

/-- A disabled policy goes through any number of updates that carry a draft. -/
theorem exists_updates {d : ReqId × List ℤ} (n : ℕ) : ∀ {w : Scheduler F},
    w.policy.enabled = false → takesDraft w.requests d = true →
      ∃ v, w.run (List.replicate n (.update [d])) = some v ∧
        w.updates (List.replicate n (.update [d])) = n ∧ v.file = w.file := by
  induction n with
  | zero => intro w _ _; exact ⟨w, rfl, rfl, rfl⟩
  | succ n ih =>
    intro w he hd
    obtain ⟨u, hu, hp, hf, hr⟩ := update_disabled he d
    obtain ⟨v, hv, hn, hfile⟩ := ih (hp ▸ he) (hr ▸ hd)
    have hcarries : (Op.update [d] : Op F).carriesDraft w.requests = true := by
      simp [Op.carriesDraft, hd]
    refine ⟨v, ?_, ?_, hfile.trans hf⟩
    · rw [List.replicate_succ, run_cons, hu]
      exact hv
    · simp only [List.replicate_succ, updates, hu, hcarries, if_true, hn]
      omega

theorem not_live_of_disabled {w : Scheduler F} (he : w.policy.enabled = false)
    (hs : ¬ w.Synced) : ¬ w.Live := by
  intro hlive
  -- one request that takes the draft `[0]`, and fifty updates with it
  let one : ReqId → Option Request := fun _ => some ⟨[], false, false, false, id⟩
  have htake : takesDraft one ([], [0]) = true := rfl
  obtain ⟨v, hv, hn, hfile⟩ :=
    exists_updates 50 (w := { w with requests := one }) he htake
  have hrun : w.run (.schedule one :: List.replicate 50 (.update [([], [0])])) = some v := by
    rw [run_cons]
    exact hv
  have hcount : 50 ≤ w.updates (.schedule one :: List.replicate 50 (.update [([], [0])])) :=
    (hn.ge).trans (Nat.le_add_left _ _)
  refine hs ?_
  have hend := (hlive _ v hrun hcount).2 ?_
  · rwa [Synced, (run_disabled _ he hrun).fileMtime, hfile] at hend
  · intro op hop
    obtain rfl | hop := List.mem_cons.1 hop
    · rfl
    · rw [List.eq_of_mem_replicate hop]
      rfl

/-- In every state of a policy that booted enabled, reachable or not, with an override file that
has not been read: the file is live exactly if the policy is enabled. -/
theorem live_iff_enabled {w : Scheduler F} (hb : w.policy.bootEnabled = true) (hs : ¬ w.Synced) :
    w.Live ↔ w.policy.enabled = true := by
  refine ⟨fun hlive => ?_, live_of_enabled hb⟩
  by_contra he
  exact not_live_of_disabled (Bool.not_eq_true _ ▸ he) hs hlive

/-! ### A file that turns the policy off -/

/-- The scheduler after a boot with the default environment and no override file. -/
def defaultBoot : Scheduler ℚ :=
  ⟨(Policy.defaultEnv.boot none).get Policy.defaultEnv_boots, fun _ => none, none⟩

/-- An override file with a mode and nothing else. -/
def modeFile (mtime : ℤ) (mode : Text) : OverrideFile ℚ :=
  ⟨mtime, some ⟨some mode, .missing, .missing, .missing, none, .missing⟩⟩

/-- A file with `mode=off` is written and read by an update, then replaced by a file with
`mode=ema`. -/
def offRun : List (Op ℚ) :=
  [.write (some (modeFile 1 ['o', 'f', 'f'])),
    .schedule fun _ => some ⟨[], false, false, false, id⟩, .update [(['a'], [1, 2])],
    .write (some (modeFile 2 ['e', 'm', 'a']))]

theorem defaultBoot_live : ({ defaultBoot with file := some (modeFile 1 ['e', 'm', 'a']) }).Live :=
  (live_iff_enabled (by decide +kernel) (by rw [Synced]; decide +kernel)).2 (by decide +kernel)

/-- The file with `mode=ema` is never read, and the policy stays off for ever. -/
theorem offRun_not_live :
    ∃ w, defaultBoot.run offRun = some w ∧ w.policy.bootEnabled = true ∧ ¬ w.Synced ∧ ¬ w.Live ∧
      ∀ ops v, w.run ops = some v → v.policy.enabled = false := by
  have hflags : (defaultBoot.run offRun).map (fun w =>
      (w.policy.bootEnabled, w.policy.enabled, w.policy.fileMtime, w.file.map (·.mtime))) =
      some (true, false, some 1, some 2) := by
    decide +kernel
  obtain ⟨w, hw, hf⟩ := Option.map_eq_some_iff.1 hflags
  simp only [Prod.mk.injEq] at hf
  obtain ⟨hb, he, hm, hfile⟩ := hf
  have hs : ¬ w.Synced := by
    rw [Synced, hm, hfile]
    decide
  exact ⟨w, hw, hb, hs, not_live_of_disabled he hs,
    fun ops v hv => (run_disabled ops he hv).enabled.trans he⟩

end Scheduler

end Glm53Serve.AdaptiveK
