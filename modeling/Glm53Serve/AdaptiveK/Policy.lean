import Glm53Serve.Lib.Run
import Glm53Serve.Py.Int
import Mathlib.Algebra.Order.Floor.Ring
import Mathlib.Data.Rat.Floor

/-!
# The adaptive-k policy

The scheduler overlay `patch_adaptive_k.py` keeps, for every request, an exponential moving
average of the drafts that were accepted, and trims the drafts to be verified to a uniform
width. Its settings come from the environment at boot, and from an override file that is
read again while the server runs.

## The model

The class `_Glm53AdaptiveK`, method by method. Numbers are of any type with the operations
of a `float`; their `ceil` may raise. Of an override file the model keeps what each field
converts to (`Entry`); an assignment that raises leaves the assignments before it done, as
in the source. Dictionaries are partial functions, as nothing but a log line depends on
their order. The log lines are left out, and so is what is raised where one cannot be printed; the
last one of a reload comes after the assignments. `lower` is that of the ASCII letters.

## What is proved

* `step_keeps` — what observations, reloads and batches leave as it is.
* `run_fromBoot` — after every run from a boot the candidates are a part of the boot set.
-/

namespace Glm53Serve.AdaptiveK

open Py

/-! ### Numbers, words and sets -/

/-- What the policy asks of its numbers. -/
class Number (F : Type) extends Add F, Sub F, Mul F, IntCast F, LT F where
  decidableLT : DecidableLT F
  /-- `int(math.ceil(x))`; `none` is an exception (of a nan or an infinity). -/
  ceil : F → Option ℤ

attribute [reducible, instance] Number.decidableLT

/-- Exact arithmetic. -/
instance : Number ℚ where
  decidableLT := inferInstance
  ceil q := some ⌈q⌉

/-- `str.lower()` on ASCII letters; no other letter becomes one of the words compared with. -/
def lower (t : Text) : Text :=
  t.map fun c => if 'A' ≤ c ∧ c ≤ 'Z' then Char.ofNat (c.toNat + 32) else c

/-- `x.strip().lower()`. -/
def word (t : Text) : Text := lower (strip t)

/-- `mode in ("ema", "on", "1")`. -/
def modeOn (t : Text) : Bool := [['e', 'm', 'a'], ['o', 'n'], ['1']].contains t

/-- `flag in ("1", "on", "true", "yes")`. -/
def flagOn (t : Text) : Bool :=
  [['1'], ['o', 'n'], ['t', 'r', 'u', 'e'], ['y', 'e', 's']].contains t

/-- `sorted({int(x) for x in raw.split(",") if x.strip()})`; `none` is `ValueError`. -/
def parseSet (raw : Text) : Option (List ℤ) :=
  (((raw.splitOn ',').filter fun x => strip x ≠ []).mapM Py.int).map sortedSet

/-! ### The data -/

/-- A request id. -/
abbrev ReqId := Text

/-- The environment at boot. `alpha` and `margin` are already read by `float`. -/
structure Env (F : Type) where
  /-- `GLM53_ADAPTIVE_K`. -/
  mode : Text := ['o', 'f', 'f']
  /-- `GLM53_ADAPTIVE_K_CAPTURE`. -/
  capture : Text := ['0']
  /-- `GLM53_ADAPTIVE_K_ALPHA`, 0.25 where unset. -/
  alpha : F
  /-- `GLM53_ADAPTIVE_K_MARGIN`, 1.0 where unset. -/
  margin : F
  /-- `GLM53_ADAPTIVE_K_MIN_STEPS`. -/
  minSteps : Text := ['4']
  /-- `GLM53_ADAPTIVE_K_SET`. -/
  set : Text := ['2', ',', '4', ',', '7']
  /-- `GLM53_ADAPTIVE_K_SATURATE`. -/
  saturate : Text := ['m', 'a', 'x']
  /-- `GLM53_ADAPTIVE_K_HIST`. -/
  hist : Text := ['2', '0', '0']
  /-- `GLM53_ADAPTIVE_K_BATCH_MARGIN`. -/
  batchMargin : Text := ['0']
  /-- `GLM53_ADAPTIVE_K_POS_TRIM`. -/
  posTrim : Text := ['0']

/-- The state of `_Glm53AdaptiveK`. -/
structure Policy (F : Type) where
  enabled : Bool
  graphsEnabled : Bool
  alpha : F
  margin : F
  minSteps : ℤ
  kSet : List ℤ
  saturate : Text
  histEvery : ℤ
  batchMargin : Bool
  posTrim : Bool
  /-- `req_id -> [ema, observed_steps]`. -/
  state : ReqId → Option (F × F)
  hist : ℤ → Option ℕ
  steps : ℕ
  kMax : ℤ
  bootSet : List ℤ
  bootEnabled : Bool
  bootGraphs : Bool
  /-- The time stamp of the override file that was read last. -/
  fileMtime : Option ℤ

/-- A field of the override file: absent, of a kind its conversion refuses, or its value. -/
inductive Entry (α : Type*) where
  | missing
  | bad
  | val (a : α)

/-- `convert(cfg.get(key, old))`; `none` is an exception. -/
def Entry.get {α : Type*} (old : α) : Entry α → Option α
  | .missing => some old
  | .bad => none
  | .val a => some a

/-- The fields of an override file. `str` converts everything. -/
structure Override (F : Type) where
  mode : Option Text
  alpha : Entry F
  margin : Entry F
  minSteps : Entry ℤ
  saturate : Option Text
  set : Entry (List ℤ)

/-- What is at the override file's path, if a file is there: its time stamp, and its fields
where it is a JSON object. -/
structure OverrideFile (F : Type) where
  mtime : ℤ
  content : Option (Override F)

/-- A request as the policy sees it. -/
structure Req where
  requestId : ReqId
  specTokenIds : List ℤ
  deriving DecidableEq

/-- What choosing a width can raise. -/
inductive PyError where
  /-- `math.ceil` of a nan or an infinity. -/
  | ceil
  /-- `min` of an empty set of candidates. -/
  | emptySet
  deriving DecidableEq, Repr

namespace Policy

variable {F : Type}

/-! ### Reading the override file -/

/-- How `_reload` ends. -/
inductive Reloaded where
  | unchanged
  | gone
  | reloaded
  /-- The branch that prints "override file ignored". -/
  | ignored
  deriving DecidableEq, Repr

/-- `sorted(want & set(self.boot_set)) or list(self.boot_set)`. -/
def restrictSet (want bootSet : List ℤ) : List ℤ :=
  let both := sortedSet (want.filter (· ∈ bootSet))
  if both = [] then bootSet else both

/-- The body of the `try` of `_reload`. -/
def assign (p : Policy F) (cfg : Override F) : Policy F × Reloaded :=
  let p := { p with enabled := modeOn (word (cfg.mode.getD ['e', 'm', 'a'])) }
  match cfg.alpha.get p.alpha with
  | none => (p, .ignored)
  | some alpha =>
    let p := { p with alpha := alpha }
    match cfg.margin.get p.margin with
    | none => (p, .ignored)
    | some margin =>
      let p := { p with margin := margin }
      match cfg.minSteps.get p.minSteps with
      | none => (p, .ignored)
      | some minSteps =>
        let p := { p with minSteps := minSteps, saturate := word (cfg.saturate.getD p.saturate) }
        match cfg.set with
        | .bad => (p, .ignored)
        | .missing => ({ p with state := fun _ => none, hist := fun _ => none }, .reloaded)
        | .val want =>
          ({ p with
              kSet := restrictSet want p.bootSet, state := fun _ => none, hist := fun _ => none },
            .reloaded)

/-- `_reload()`, and how it ends. -/
def reloadEnd (p : Policy F) (file : Option (OverrideFile F)) : Policy F × Reloaded :=
  if !p.bootEnabled then (p, .unchanged)
  else if file.map (·.mtime) = p.fileMtime then (p, .unchanged)
  else
    let p := { p with fileMtime := file.map (·.mtime) }
    match file with
    | none => (p, .gone)
    | some f =>
      match f.content with
      | none => (p, .ignored)
      | some cfg => p.assign cfg

/-- `_reload()`. -/
def reload (p : Policy F) (file : Option (OverrideFile F)) : Policy F := (p.reloadEnd file).1

/-- The reload that `apply` starts with. -/
def refresh (p : Policy F) (file : Option (OverrideFile F)) : Policy F :=
  if p.steps % 50 = 0 then p.reload file else p

/-! ### What a reload keeps -/

/-- What an operation that leads from `p` to `q` leaves as it is; the candidate set is left
or taken from the boot set again. -/
structure Keeps (p q : Policy F) : Prop where
  bootEnabled : q.bootEnabled = p.bootEnabled
  bootSet : q.bootSet = p.bootSet
  kMax : q.kMax = p.kMax
  batchMargin : q.batchMargin = p.batchMargin
  posTrim : q.posTrim = p.posTrim
  kSet : q.kSet = p.kSet ∨ ∃ want, q.kSet = restrictSet want p.bootSet

theorem Keeps.refl (p : Policy F) : p.Keeps p := ⟨rfl, rfl, rfl, rfl, rfl, .inl rfl⟩

theorem Keeps.trans {p q r : Policy F} (h : p.Keeps q) (h' : q.Keeps r) : p.Keeps r := by
  refine ⟨h'.bootEnabled.trans h.bootEnabled, h'.bootSet.trans h.bootSet, h'.kMax.trans h.kMax,
    h'.batchMargin.trans h.batchMargin, h'.posTrim.trans h.posTrim, ?_⟩
  obtain hk | ⟨want, hk⟩ := h'.kSet
  · rw [hk]
    exact h.kSet
  · exact .inr ⟨want, by rw [hk, h.bootSet]⟩

theorem assign_keeps (p : Policy F) (cfg : Override F) : p.Keeps (p.assign cfg).1 := by
  simp only [assign]
  repeat' split
  all_goals first
    | exact ⟨rfl, rfl, rfl, rfl, rfl, .inl rfl⟩
    | exact ⟨rfl, rfl, rfl, rfl, rfl, .inr ⟨_, rfl⟩⟩

theorem reload_keeps (p : Policy F) (file : Option (OverrideFile F)) : p.Keeps (p.reload file) := by
  simp only [reload, reloadEnd]
  split_ifs
  · exact .refl p
  · exact .refl p
  · have hm : p.Keeps { p with fileMtime := file.map (·.mtime) } :=
      ⟨rfl, rfl, rfl, rfl, rfl, .inl rfl⟩
    cases file with
    | none => exact hm
    | some f =>
      cases hf : f.content with
      | none => simpa only [hf] using hm
      | some cfg => simpa only [hf] using hm.trans (assign_keeps _ cfg)

theorem refresh_keeps (p : Policy F) (file : Option (OverrideFile F)) :
    p.Keeps (p.refresh file) := by
  rw [refresh]
  split_ifs
  · exact p.reload_keeps file
  · exact .refl p

/-- The candidates are a part of the boot set, empty only with it, and these are positive. -/
structure WellFormed (p : Policy F) : Prop where
  subset : ∀ k ∈ p.kSet, k ∈ p.bootSet
  nonempty : p.bootSet ≠ [] → p.kSet ≠ []
  pos : ∀ k ∈ p.bootSet, 0 < k

theorem mem_of_mem_restrictSet {want bootSet : List ℤ} {k : ℤ} (h : k ∈ restrictSet want bootSet) :
    k ∈ bootSet := by
  simp only [restrictSet] at h
  split_ifs at h
  · exact h
  · rw [mem_sortedSet, List.mem_filter] at h
    exact of_decide_eq_true h.2

theorem restrictSet_ne_nil {bootSet : List ℤ} (h : bootSet ≠ []) (want : List ℤ) :
    restrictSet want bootSet ≠ [] := by
  simp only [restrictSet]
  split_ifs with hb
  · exact h
  · exact hb

theorem Keeps.kSet_of {p q : Policy F} (h : p.Keeps q) (hsub : ∀ k ∈ p.kSet, k ∈ p.bootSet)
    (hne : p.bootSet ≠ [] → p.kSet ≠ []) :
    (∀ k ∈ q.kSet, k ∈ q.bootSet) ∧ (q.bootSet ≠ [] → q.kSet ≠ []) := by
  rw [h.bootSet]
  obtain he | ⟨want, he⟩ := h.kSet <;> rw [he]
  · exact ⟨hsub, hne⟩
  · exact ⟨fun k => mem_of_mem_restrictSet, fun hb => restrictSet_ne_nil hb want⟩

theorem WellFormed.keeps {p q : Policy F} (h : p.WellFormed) (hk : p.Keeps q) : q.WellFormed := by
  obtain ⟨hsub, hne⟩ := hk.kSet_of h.subset h.nonempty
  exact ⟨hsub, hne, fun k hmem => h.pos k (hk.bootSet ▸ hmem)⟩

end Policy

/-- `__init__`; `none` is a `ValueError` of one of the numbers. -/
def Env.boot {F : Type} (env : Env F) (file : Option (OverrideFile F)) : Option (Policy F) := do
  let enabled := modeOn (word env.mode)
  let graphsEnabled := enabled || flagOn (word env.capture)
  let minSteps ← Py.int env.minSteps
  let kSet ← parseSet env.set
  let histEvery ← Py.int env.hist
  let p : Policy F :=
    { enabled, graphsEnabled, alpha := env.alpha, margin := env.margin, minSteps, kSet,
      saturate := word env.saturate, histEvery,
      batchMargin := flagOn (word env.batchMargin), posTrim := flagOn (word env.posTrim),
      state := fun _ => none, hist := fun _ => none, steps := 0,
      kMax := kSet.max?.getD 0, bootSet := kSet, bootEnabled := enabled,
      bootGraphs := graphsEnabled, fileMtime := none }
  return p.reload file

namespace Policy

variable {F : Type} [Number F]

/-! ### Observing and choosing -/

/-- `observe(req_id, num_draft, num_accepted)`. -/
def observe (p : Policy F) (reqId : ReqId) (numDraft numAccepted : ℤ) : Policy F :=
  if !p.enabled || numDraft ≤ 0 then p
  else
    let obs : F :=
      if numDraft ≤ numAccepted ∧ p.saturate ≠ ['n'] then ((max p.kMax numDraft : ℤ) : F)
      else (numAccepted : F)
    let one : F := ((1 : ℤ) : F)
    match p.state reqId with
    | none =>
      { p with
        state := Function.update p.state reqId
          (some (obs * p.alpha + (p.kMax : F) * (one - p.alpha), one)) }
    | some (ema, observed) =>
      { p with
        state := Function.update p.state reqId
          (some (obs * p.alpha + ema * (one - p.alpha), observed + one)) }

/-- The largest candidate up to `min(target, k)`, or the least candidate; `none` is the
`ValueError` of an empty set. -/
def candidate (p : Policy F) (target k : ℤ) : Option ℤ :=
  let cands := p.kSet.filter (· ≤ min target k)
  if cands = [] then p.kSet.min? else cands.max?

/-- `choose(req_id, k, structured)`: the draft length for a request, `none` when it must stay
at full length. -/
def choose (p : Policy F) (reqId : ReqId) (k : ℤ) (structured : Bool) :
    Except PyError (Option ℤ) :=
  if !p.enabled || structured || k ≤ 0 then .ok none
  else
    match p.state reqId with
    | none => .ok none
    | some (ema, observed) =>
      if observed < (p.minSteps : F) then .ok none
      else
        match Number.ceil (ema + p.margin) with
        | none => .error .ceil
        | some target =>
          match p.candidate target k with
          | none => .error .emptySet
          | some n => .ok (some (max 1 (min n k)))

/-! ### The width of a batch -/

/-- The number of draft tokens of a request. -/
def draftLen (r : Req) : ℤ := r.specTokenIds.length

/-- `[self.choose(r.request_id, len(r.spec_token_ids), s) for r, s in reqs]`. -/
def picks (p : Policy F) (reqs : List (Req × Bool)) : Except PyError (List (Option ℤ)) :=
  reqs.mapM fun (r, s) => p.choose r.requestId (draftLen r) s

/-- `_margin_width(reqs, picks)`. -/
def marginWidth (p : Policy F) (reqs : List (Req × Bool)) (picks : List (Option ℤ)) : Option ℤ :=
  if !p.batchMargin || reqs.any (·.2) then none
  else (picks.filterMap id).min?

/-- `_pos_width(reqs, picks, n)`. -/
def posWidth (p : Policy F) (reqs : List (Req × Bool)) (picks : List (Option ℤ)) (n : ℤ) :
    Option ℤ :=
  if !(p.posTrim && p.batchMargin) then none
  else if reqs.any (·.2) then none
  else if reqs.length < 2 then none
  else if picks.any (·.isNone) then none
  else
    let floor := p.kSet.min?.getD n
    if floor < n then some (min n floor) else none

/-- `max(len(r.spec_token_ids) for r, _ in reqs)` of a batch with a request. -/
def maxLen (reqs : List (Req × Bool)) : ℤ := (reqs.map fun r => draftLen r.1).foldr max 0

/-- The width that `apply` trims the batch to. -/
def width (p : Policy F) (reqs : List (Req × Bool)) (picks : List (Option ℤ)) : ℤ :=
  if picks.all (·.isSome) then
    -- `picks` has an element, as `reqs` has one
    let n := (picks.filterMap id).min?.getD 0
    (p.posWidth reqs picks n).getD n
  else (p.marginWidth reqs picks).getD (maxLen reqs)

/-- `l[:n]`: a negative `n` counts from the end. -/
def sliceTo {α : Type*} (l : List α) (n : ℤ) : List α :=
  l.take (if 0 ≤ n then n else l.length + n).toNat

/-- `if len(r.spec_token_ids) > n: r.spec_token_ids = r.spec_token_ids[:n]`. -/
def trim (n : ℤ) (r : Req × Bool) : Req × Bool :=
  if n < draftLen r.1 then ({ r.1 with specTokenIds := sliceTo r.1.specTokenIds n }, r.2) else r

/-- `_count(n, live_ids)`. -/
def count (p : Policy F) (n : ℤ) (liveIds : ReqId → Bool) : Policy F :=
  let p := { p with
    hist := Function.update p.hist n (some ((p.hist n).getD 0 + 1)), steps := p.steps + 1 }
  if 0 < p.histEvery ∧ (p.steps : ℤ) % p.histEvery = 0 then
    { p with state := fun r => if liveIds r then p.state r else none }
  else p

/-- What `apply` leaves: the policy, the batch, and the exception it ends with. -/
structure Applied (F : Type) where
  policy : Policy F
  reqs : List (Req × Bool)
  raised : Option PyError

/-- `apply(reqs, live_ids)`; a request comes with whether it is structured. -/
def apply (p : Policy F) (file : Option (OverrideFile F)) (reqs : List (Req × Bool))
    (liveIds : ReqId → Bool) : Applied F :=
  let p := p.refresh file
  if !p.enabled || reqs.isEmpty then ⟨{ p with steps := p.steps + 1 }, reqs, none⟩
  else
    match p.picks reqs with
    | .error e => ⟨p, reqs, some e⟩
    | .ok picks =>
      let n := p.width reqs picks
      ⟨p.count n liveIds, reqs.map (trim n), none⟩

/-! ### Runs -/

/-- What the scheduler does with the policy. -/
inductive Op (F : Type) where
  | observe (reqId : ReqId) (numDraft numAccepted : ℤ)
  | reload (file : Option (OverrideFile F))
  | apply (file : Option (OverrideFile F)) (reqs : List (Req × Bool)) (liveIds : ReqId → Bool)

/-- The policy after an operation. -/
def step (p : Policy F) : Op F → Policy F
  | .observe reqId numDraft numAccepted => p.observe reqId numDraft numAccepted
  | .reload file => p.reload file
  | .apply file reqs liveIds => (p.apply file reqs liveIds).policy

/-! ### What every operation keeps -/

theorem observe_keeps (p : Policy F) (reqId : ReqId) (numDraft numAccepted : ℤ) :
    p.Keeps (p.observe reqId numDraft numAccepted) := by
  simp only [observe]
  repeat' split
  all_goals exact ⟨rfl, rfl, rfl, rfl, rfl, .inl rfl⟩

omit [Number F] in
theorem count_keeps (p : Policy F) (n : ℤ) (liveIds : ReqId → Bool) :
    p.Keeps (p.count n liveIds) := by
  simp only [count]
  split_ifs <;> exact ⟨rfl, rfl, rfl, rfl, rfl, .inl rfl⟩

theorem apply_keeps (p : Policy F) (file : Option (OverrideFile F)) (reqs : List (Req × Bool))
    (liveIds : ReqId → Bool) : p.Keeps (p.apply file reqs liveIds).policy := by
  have hr := p.refresh_keeps file
  simp only [apply]
  split
  · exact hr.trans ⟨rfl, rfl, rfl, rfl, rfl, .inl rfl⟩
  · split
    · exact hr
    · exact hr.trans (count_keeps _ _ _)

theorem step_keeps (p : Policy F) (op : Op F) : p.Keeps (p.step op) := by
  cases op with
  | observe reqId numDraft numAccepted => exact p.observe_keeps reqId numDraft numAccepted
  | reload file => exact p.reload_keeps file
  | apply file reqs liveIds => exact p.apply_keeps file reqs liveIds

/-! ### When the override file is read -/

omit [Number F] in
theorem assign_fileMtime (p : Policy F) (cfg : Override F) :
    (p.assign cfg).1.fileMtime = p.fileMtime ∧ (p.assign cfg).1.steps = p.steps := by
  simp only [assign]
  repeat' split
  all_goals exact ⟨rfl, rfl⟩

omit [Number F] in
/-- After a reload the file that is there is the one recorded, if the policy booted enabled. -/
theorem reload_fileMtime (p : Policy F) (file : Option (OverrideFile F)) :
    (p.reload file).fileMtime = (if p.bootEnabled then file.map (·.mtime) else p.fileMtime) ∧
      (p.reload file).steps = p.steps := by
  simp only [reload, reloadEnd]
  cases hb : p.bootEnabled with
  | false => exact ⟨rfl, rfl⟩
  | true =>
    rw [if_neg (by decide), if_pos rfl]
    split_ifs with he
    · exact ⟨he.symm, rfl⟩
    · cases file with
      | none => exact ⟨rfl, rfl⟩
      | some f =>
        cases hf : f.content with
        | none => simp only [hf, and_self]
        | some cfg => simpa only [hf] using assign_fileMtime _ cfg

omit [Number F] in
theorem refresh_steps (p : Policy F) (file : Option (OverrideFile F)) :
    (p.refresh file).steps = p.steps := by
  rw [refresh]
  split_ifs
  · exact (p.reload_fileMtime file).2
  · rfl

omit [Number F] in
theorem refresh_synced {p : Policy F} {file : Option (OverrideFile F)}
    (h : p.fileMtime = file.map (·.mtime)) : (p.refresh file).fileMtime = file.map (·.mtime) := by
  rw [refresh]
  split_ifs
  · rw [(p.reload_fileMtime file).1, h, ite_self]
  · exact h

omit [Number F] in
theorem count_spec (p : Policy F) (n : ℤ) (liveIds : ReqId → Bool) :
    (p.count n liveIds).enabled = p.enabled ∧ (p.count n liveIds).fileMtime = p.fileMtime ∧
      (p.count n liveIds).steps = p.steps + 1 := by
  simp only [count]
  split_ifs <;> exact ⟨rfl, rfl, rfl⟩

/-- An `apply` that returns counts a step, and leaves the settings that its reload found. -/
theorem apply_spec (p : Policy F) (file : Option (OverrideFile F)) (reqs : List (Req × Bool))
    (liveIds : ReqId → Bool) (h : (p.apply file reqs liveIds).raised = none) :
    (p.apply file reqs liveIds).policy.enabled = (p.refresh file).enabled ∧
      (p.apply file reqs liveIds).policy.fileMtime = (p.refresh file).fileMtime ∧
      (p.apply file reqs liveIds).policy.steps = (p.refresh file).steps + 1 := by
  simp only [apply] at h ⊢
  split_ifs with hoff
  · exact ⟨rfl, rfl, rfl⟩
  · rw [if_neg hoff] at h
    cases hp : (p.refresh file).picks reqs with
    | error e => simp [hp] at h
    | ok ps => exact count_spec _ _ _

/-- Observing changes the averages only. -/
theorem observe_spec (p : Policy F) (reqId : ReqId) (numDraft numAccepted : ℤ) :
    (p.observe reqId numDraft numAccepted).enabled = p.enabled ∧
      (p.observe reqId numDraft numAccepted).fileMtime = p.fileMtime ∧
      (p.observe reqId numDraft numAccepted).steps = p.steps := by
  simp only [observe]
  repeat' split
  all_goals exact ⟨rfl, rfl, rfl⟩

/-! ### Every reachable policy -/

omit [Number F] in
/-- What `__init__` sets up, whatever the override file says. -/
theorem boot_spec {env : Env F} {file : Option (OverrideFile F)} {p : Policy F}
    (h : env.boot file = some p) :
    parseSet env.set = some p.bootSet ∧ p.bootEnabled = modeOn (word env.mode) ∧
      p.kMax = p.bootSet.max?.getD 0 ∧ (∀ k ∈ p.kSet, k ∈ p.bootSet) ∧
      (p.bootSet ≠ [] → p.kSet ≠ []) := by
  simp only [Env.boot, Option.bind_eq_bind, Option.bind_eq_some_iff, Option.pure_def,
    Option.some.injEq] at h
  obtain ⟨minSteps, -, kSet, hset, histEvery, -, rfl⟩ := h
  generalize hq : (⟨_, _, _, _, _, _, _, _, _, _, _, _, _, _, _, _, _, _⟩ : Policy F) = q
  have hk := q.reload_keeps file
  have hb : q.bootSet = kSet := by rw [← hq]
  have hs : q.kSet = q.bootSet := by rw [← hq]
  refine ⟨by rw [hk.bootSet, hb, hset], ?_, ?_, ?_⟩
  · rw [hk.bootEnabled, ← hq]
  · rw [hk.kMax, hk.bootSet, ← hq]
  · exact hk.kSet_of (fun k hm => hs ▸ hm) (fun hn => hs ▸ hn)

/-- What holds of every policy that a run from a boot with a positive set reaches. -/
structure FromBoot (env : Env F) (p : Policy F) : Prop where
  wellFormed : p.WellFormed
  bootSet : parseSet env.set = some p.bootSet
  bootEnabled : p.bootEnabled = modeOn (word env.mode)

omit [Number F] in
theorem fromBoot_of_boot {env : Env F} {file : Option (OverrideFile F)} {p : Policy F}
    (h : env.boot file = some p) (hpos : ∀ kSet, parseSet env.set = some kSet → ∀ k ∈ kSet, 0 < k) :
    FromBoot env p := by
  obtain ⟨hset, hb, -, hsub, hne⟩ := boot_spec h
  exact ⟨⟨hsub, hne, hpos _ hset⟩, hset, hb⟩

theorem FromBoot.step {env : Env F} {p : Policy F} (h : FromBoot env p) (op : Op F) :
    FromBoot env (p.step op) := by
  have hk := p.step_keeps op
  exact ⟨h.wellFormed.keeps hk, by rw [hk.bootSet, h.bootSet],
    by rw [hk.bootEnabled, h.bootEnabled]⟩

/-- After a run from a boot. -/
theorem run_fromBoot {env : Env F} {file : Option (OverrideFile F)} {p : Policy F}
    (h : env.boot file = some p) (hpos : ∀ kSet, parseSet env.set = some kSet → ∀ k ∈ kSet, 0 < k)
    (ops : List (Op F)) : FromBoot env (Run.run step p ops) :=
  Run.run_invariant (FromBoot env) (fun _ op hp => FromBoot.step hp op)
    (fromBoot_of_boot h hpos) ops

/-! ### The default environment -/

/-- The default environment with the policy on. -/
def defaultEnv : Env ℚ := { mode := ['e', 'm', 'a'], alpha := 1 / 4, margin := 1 }

theorem defaultEnv_set : parseSet defaultEnv.set = some [2, 4, 7] := by decide

theorem defaultEnv_boots : (defaultEnv.boot none).isSome = true := by decide +kernel

/-- The policy of the default environment, no override file being there. -/
def defaultPolicy : Policy ℚ := (defaultEnv.boot none).get defaultEnv_boots

theorem defaultEnv_pos (kSet : List ℤ) (h : parseSet defaultEnv.set = some kSet) :
    ∀ k ∈ kSet, 0 < k := by
  rw [defaultEnv_set, Option.some.injEq] at h
  subst h
  decide

end Policy

end Glm53Serve.AdaptiveK
