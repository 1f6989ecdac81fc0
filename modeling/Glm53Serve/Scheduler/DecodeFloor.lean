import Mathlib
import Glm53Serve.AdaptiveK.Policy

/-!
# The decode floor

A long prefill in the same engine step slows a request that decodes.
`overlay/patch_scheduler_decode_floor.py` has the scheduler hold a prefill back while a
peer among the running requests is past its prompt: it is skipped in the step, or its
chunk is capped.

## The model

The two patched snippets as written. What the scheduler does around them (budgets, blocks,
the limit on running requests) is any function of the chunks the step has scheduled so far.
Of a waiting request the count of computed tokens is the cached one.

## What is proved

* `mixedRunning_past`, `mixedWaiting_past`, `exists_not_held` — whom the policy leaves alone.
* `schedule_of_past` — with a peer past its prompt from the start, every prompt chunk is capped.
* `decodeFloor_iff` — in which steps the prompt chunks beside such a peer are capped.
-/

namespace Glm53Serve.DecodeFloor

open Py

/-! ### The policy -/

/-- What the policy reads of a request. -/
structure Request where
  requestId : ℕ
  numComputedTokens : ℕ
  numPromptTokens : ℕ
  deriving DecidableEq

/-- The request is past its prompt. -/
def Request.past (r : Request) : Bool := r.numPromptTokens ≤ r.numComputedTokens

/-- The cap, of the value of `GLM53_MIXED_PREFILL_CHUNK`: `none` if the policy is disabled. -/
def mixedPrefillChunk (env : Option Text) : Option ℕ :=
  let raw := AdaptiveK.word (env.getD ['s', 'k', 'i', 'p'])
  if [['0'], ['o', 'f', 'f'], ['n', 'o']].contains raw then none
  else if [['s', 'k', 'i', 'p'], ['-', '1']].contains raw then some 0
  else
    let cap := (int raw).getD 0
    if cap ≤ 0 then none else some cap.toNat

/-- `_glm53_mixed_prefill_policy(running, current)`. -/
def mixedPrefillPolicy (env : Option Text) (running : List Request)
    (current : Request) : Option ℕ :=
  (mixedPrefillChunk env).bind fun cap =>
    if running.any fun r => r.requestId ≠ current.requestId && r.past then some cap else none

/-- The patched lines of the running loop. -/
def mixedRunning (env : Option Text) (running : List Request) (request : Request)
    (numNewTokens : ℤ) : ℤ :=
  match mixedPrefillPolicy env running request with
  | some cap => if request.past then numNewTokens else min numNewTokens cap
  | none => numNewTokens

/-- The patched lines of the waiting loop; `none` if the request is skipped. -/
def mixedWaiting (env : Option Text) (running : List Request) (request : Request)
    (numNewTokens : ℤ) :
    Option ℤ :=
  match mixedPrefillPolicy env running request with
  | some cap =>
    if request.past then some numNewTokens
    else if cap = 0 then none
    else some (min numNewTokens cap)
  | none => some numNewTokens

/-! ### A step -/

/-- What a step schedules of a request it visits. -/
structure Chunk where
  request : Request
  numTokens : ℕ

/-- The scheduler around the snippets, by the chunks of the step so far. -/
structure Scheduler where
  longPrefillTokenThreshold : ℤ
  /-- The tokens of a request that are not computed yet. -/
  numNewTokens : List Chunk → Request → ℤ
  tokenBudget : List Chunk → ℤ
  inputBudget : List Chunk → ℤ
  draftSlots : List Chunk → ℤ
  /-- What is scheduled in the end of the tokens the snippet leaves. -/
  granted : List Chunk → Request → ℤ → ℕ
  granted_le : ∀ chunks request n, (granted chunks request n : ℤ) ≤ max n 0

variable (S : Scheduler) (env : Option Text)

/-- The clamp to the threshold. -/
def Scheduler.clamp (n : ℤ) : ℤ :=
  if 0 < S.longPrefillTokenThreshold ∧ S.longPrefillTokenThreshold < n then
    S.longPrefillTokenThreshold else n

/-- The visit of a running request. -/
def visitRunning (running : List Request) (chunks : List Chunk) (request : Request) : List Chunk :=
  let numNewTokens := min (S.clamp (S.numNewTokens chunks request))
    (min (S.tokenBudget chunks) (S.inputBudget chunks - S.draftSlots chunks))
  chunks ++ [⟨request, S.granted chunks request (mixedRunning env running request numNewTokens)⟩]

/-- The state of the waiting loop: `self.running`, and the chunks. -/
structure Step where
  running : List Request
  chunks : List Chunk

/-- The visit of a waiting request, which is admitted if tokens of it are scheduled. -/
def visitWaiting (s : Step) (request : Request) : Step :=
  match mixedWaiting env s.running request (S.clamp (S.numNewTokens s.chunks request)) with
  | none => ⟨s.running, s.chunks ++ [⟨request, 0⟩]⟩
  | some numNewTokens =>
    let n := S.granted s.chunks request numNewTokens
    ⟨if 0 < n then s.running ++ [request] else s.running, s.chunks ++ [⟨request, n⟩]⟩

/-- The chunks of a step. -/
def schedule (running waiting : List Request) : List Chunk :=
  (waiting.foldl (visitWaiting S env)
    ⟨running, running.foldl (visitRunning S env running) []⟩).chunks

/-! ### Whom the policy leaves alone -/

section Policy

variable {env}

/-- A peer past its prompt among the running requests. -/
def Peer (running : List Request) (current : Request) : Prop :=
  ∃ r ∈ running, r.requestId ≠ current.requestId ∧ r.past = true

theorem mixedPrefillPolicy_peer {cap : ℕ} (hcap : mixedPrefillChunk env = some cap)
    {running : List Request} {current : Request} (h : Peer running current) :
    mixedPrefillPolicy env running current = some cap := by
  obtain ⟨r, hr, hne, hpast⟩ := h
  rw [mixedPrefillPolicy, hcap]
  exact if_pos (List.any_eq_true.mpr ⟨r, hr, by simp [hne, hpast]⟩)

/-- Without a peer past its prompt there is no policy. -/
theorem mixedPrefillPolicy_none {running : List Request} (h : ∀ r ∈ running, r.past = false)
    (current : Request) : mixedPrefillPolicy env running current = none := by
  unfold mixedPrefillPolicy
  rcases mixedPrefillChunk env with _ | cap
  · rfl
  · refine if_neg fun hany => ?_
    obtain ⟨r, hr, hpast⟩ := List.any_eq_true.mp hany
    simp [h r hr] at hpast

/-- **A request past its prompt** is not shortened in the running loop. -/
theorem mixedRunning_past {request : Request} (h : request.past = true)
    (running : List Request) (n : ℤ) :
    mixedRunning env running request n = n := by
  unfold mixedRunning
  split <;> simp [h]

/-- Nor is it skipped or shortened in the waiting loop. -/
theorem mixedWaiting_past {request : Request} (h : request.past = true)
    (running : List Request) (n : ℤ) :
    mixedWaiting env running request n = some n := by
  unfold mixedWaiting
  split <;> simp [h]

theorem mixedRunning_none {running : List Request} (h : ∀ r ∈ running, r.past = false)
    (request : Request)
    (n : ℤ) : mixedRunning env running request n = n := by
  rw [mixedRunning, mixedPrefillPolicy_none h]

theorem mixedWaiting_none {running : List Request} (h : ∀ r ∈ running, r.past = false)
    (request : Request)
    (n : ℤ) : mixedWaiting env running request n = some n := by
  rw [mixedWaiting, mixedPrefillPolicy_none h]

/-- **Some running request** is not held back. -/
theorem exists_not_held {running : List Request} (h : running ≠ []) :
    ∃ r ∈ running, ∀ n, mixedRunning env running r n = n := by
  by_cases hpast : ∃ r ∈ running, r.past = true
  · obtain ⟨r, hr, hp⟩ := hpast
    exact ⟨r, hr, mixedRunning_past hp running⟩
  · obtain ⟨r, hr⟩ := List.exists_mem_of_ne_nil _ h
    refine ⟨r, hr, mixedRunning_none (fun r hr => ?_) r⟩
    simpa using fun hp => hpast ⟨r, hr, hp⟩

end Policy

/-! ### The cap -/

/-- A chunk of a prompt is not longer than the cap. -/
def Capped (cap : ℕ) (c : Chunk) : Prop := c.request.past = false → c.numTokens ≤ cap

/-- The chunk decodes: it has tokens of a request past its prompt. -/
def Chunk.decodes (c : Chunk) : Bool := c.request.past && (0 < c.numTokens : Bool)

/-- Beside a chunk that decodes, every chunk of a prompt is within the cap. -/
def Floor (cap : ℕ) (chunks : List Chunk) : Prop :=
  ∀ c ∈ chunks, c.request.past = false → (∃ d ∈ chunks, d.decodes = true) → c.numTokens ≤ cap

instance (cap : ℕ) (chunks : List Chunk) : Decidable (Floor cap chunks) :=
  inferInstanceAs (Decidable (∀ c ∈ chunks, _))

variable {S env} {cap : ℕ}

theorem mixedRunning_le (hcap : mixedPrefillChunk env = some cap) {running : List Request}
    {request : Request} (hpeer : Peer running request) (hpast : request.past = false) (n : ℤ) :
    mixedRunning env running request n ≤ cap := by
  simp only [mixedRunning, mixedPrefillPolicy_peer hcap hpeer, hpast, Bool.false_eq_true, if_false]
  exact min_le_right _ _

theorem mixedWaiting_le (hcap : mixedPrefillChunk env = some cap) {running : List Request}
    {request : Request} (hpeer : Peer running request) (hpast : request.past = false) {n n' : ℤ}
    (h : mixedWaiting env running request n = some n') : n' ≤ cap := by
  simp only [mixedWaiting, mixedPrefillPolicy_peer hcap hpeer, hpast, Bool.false_eq_true, if_false]
    at h
  split_ifs at h
  rw [← Option.some.inj h]
  exact min_le_right _ _

theorem granted_le_cap {chunks : List Chunk} {request : Request} {n : ℤ} (h : n ≤ cap) :
    S.granted chunks request n ≤ cap := by
  have := S.granted_le chunks request n
  omega

theorem capped_visitRunning (hcap : mixedPrefillChunk env = some cap) {running : List Request}
    {request : Request} (hpeer : request.past = false → Peer running request) {chunks : List Chunk}
    (h : ∀ c ∈ chunks, Capped cap c) :
    ∀ c ∈ visitRunning S env running chunks request, Capped cap c := by
  intro c hc
  rcases List.mem_append.mp hc with hc | hc
  · exact h c hc
  · rw [List.mem_singleton.mp hc]
    exact fun hpast => granted_le_cap (mixedRunning_le hcap (hpeer hpast) hpast _)

/-- The visit of a waiting request: it adds a chunk, and admits the request if that has tokens. -/
theorem visitWaiting_eq (S : Scheduler) (env : Option Text) (s : Step) (request : Request) :
    ∃ n, visitWaiting S env s request =
        ⟨if 0 < n then s.running ++ [request] else s.running, s.chunks ++ [⟨request, n⟩]⟩ ∧
      ∀ cap, mixedPrefillChunk env = some cap → Peer s.running request →
        Capped cap ⟨request, n⟩ := by
  unfold visitWaiting
  rcases h : mixedWaiting env s.running request (S.clamp (S.numNewTokens s.chunks request))
    with _ | n
  · exact ⟨0, rfl, fun _ _ _ _ => Nat.zero_le _⟩
  · exact ⟨_, rfl, fun cap hcap hpeer hpast => granted_le_cap (mixedWaiting_le hcap hpeer hpast h)⟩

theorem foldl_visitWaiting (S : Scheduler) (env : Option Text)
    (waiting : List Request) : ∀ s : Step,
    ∃ chunks, (waiting.foldl (visitWaiting S env) s).chunks = s.chunks ++ chunks := by
  induction waiting with
  | nil => exact fun s => ⟨[], (List.append_nil _).symm⟩
  | cons w waiting ih =>
    intro s
    obtain ⟨n, hn, -⟩ := visitWaiting_eq S env s w
    obtain ⟨chunks, hchunks⟩ := ih (visitWaiting S env s w)
    refine ⟨⟨w, n⟩ :: chunks, ?_⟩
    rw [List.foldl_cons, hchunks, hn, List.append_assoc, List.singleton_append]

/-- **With a running peer past its prompt**, the waiting loop caps the chunks of prompts. -/
theorem capped_waiting (hcap : mixedPrefillChunk env = some cap) (waiting : List Request) :
    ∀ s : Step, (∃ r ∈ s.running, r.past = true ∧ ∀ w ∈ waiting, r.requestId ≠ w.requestId) →
      ∃ chunks, (waiting.foldl (visitWaiting S env) s).chunks = s.chunks ++ chunks ∧
        ∀ c ∈ chunks, Capped cap c := by
  induction waiting with
  | nil => exact fun s _ => ⟨[], (List.append_nil _).symm, by simp⟩
  | cons w waiting ih =>
    rintro s ⟨r, hr, hpast, hne⟩
    obtain ⟨n, hn, hcapped⟩ := visitWaiting_eq S env s w
    have hr' : r ∈ (visitWaiting S env s w).running := by
      rw [hn]
      dsimp only
      split_ifs
      · exact List.mem_append_left _ hr
      · exact hr
    obtain ⟨chunks, hchunks, hall⟩ := ih _ ⟨r, hr', hpast, fun w' hw' => hne w' (.tail _ hw')⟩
    refine ⟨⟨w, n⟩ :: chunks, ?_, List.forall_mem_cons.mpr
      ⟨hcapped cap hcap ⟨r, hr, hne w (.head _), hpast⟩, hall⟩⟩
    rw [List.foldl_cons, hchunks, hn, List.append_assoc, List.singleton_append]

theorem capped_running (hcap : mixedPrefillChunk env = some cap) {running visited : List Request}
    (hpeer : ∀ r ∈ visited, r.past = false → Peer running r) {chunks : List Chunk}
    (h : ∀ c ∈ chunks, Capped cap c) :
    ∀ c ∈ visited.foldl (visitRunning S env running) chunks, Capped cap c := by
  induction visited generalizing chunks with
  | nil => exact h
  | cons r visited ih =>
    exact ih (fun r' hr' => hpeer r' (.tail _ hr')) (capped_visitRunning hcap (hpeer r (.head _)) h)

/-- **With a peer past its prompt from the start**, every chunk of a prompt is within the cap. -/
theorem schedule_of_past (hcap : mixedPrefillChunk env = some cap) {running waiting : List Request}
    (hids : ((running ++ waiting).map Request.requestId).Nodup)
    (hpast : ∃ r ∈ running, r.past = true) :
    ∀ c ∈ schedule S env running waiting, Capped cap c := by
  obtain ⟨d, hd, hdpast⟩ := hpast
  have hne : ∀ r ∈ running ++ waiting, r ≠ d → d.requestId ≠ r.requestId := fun r hr hrd heq =>
    hrd (List.inj_on_of_nodup_map hids hr (List.mem_append_left _ hd) heq.symm)
  have hdw : d ∉ waiting := fun hmem =>
    (List.disjoint_of_nodup_append hids.of_map) hd hmem
  have hrunning : ∀ c ∈ running.foldl (visitRunning S env running) [], Capped cap c := by
    refine capped_running hcap (fun r hr hrpast => ?_) (by simp)
    refine ⟨d, hd, hne r (List.mem_append_left _ hr) ?_, hdpast⟩
    rintro rfl
    simp [hdpast] at hrpast
  obtain ⟨chunks, hchunks, hall⟩ := capped_waiting (S := S) hcap waiting
    ⟨running, running.foldl (visitRunning S env running) []⟩
    ⟨d, hd, hdpast, fun w hw => hne w (List.mem_append_right _ hw) fun heq => hdw (heq ▸ hw)⟩
  intro c hc
  rw [schedule, hchunks] at hc
  exact (List.mem_append.mp hc).elim (hrunning c) (hall c)

/-! ### Without such a peer -/

/-- `GLM53_MIXED_PREFILL_CHUNK=0`. -/
def disabled : Option Text := some ['0']

theorem mixedPrefillPolicy_disabled (running : List Request) (current : Request) :
    mixedPrefillPolicy disabled running current = none := by
  rw [mixedPrefillPolicy, show mixedPrefillChunk disabled = none from by decide]
  rfl

theorem mixedRunning_disabled (running : List Request) (request : Request) (n : ℤ) :
    mixedRunning disabled running request n = n := by
  rw [mixedRunning, mixedPrefillPolicy_disabled]

theorem mixedWaiting_disabled (running : List Request) (request : Request) (n : ℤ) :
    mixedWaiting disabled running request n = some n := by
  rw [mixedWaiting, mixedPrefillPolicy_disabled]

/-- While no running request is past its prompt, the step is the one without the policy. -/
theorem visitRunning_disabled {running : List Request} (h : ∀ r ∈ running, r.past = false)
    (chunks : List Chunk) (request : Request) :
    visitRunning S env running chunks request = visitRunning S disabled running chunks request := by
  rw [visitRunning, visitRunning, mixedRunning_none h, mixedRunning_disabled]

theorem visitWaiting_disabled (env : Option Text) {s : Step} (h : ∀ r ∈ s.running, r.past = false)
    (request : Request) :
    visitWaiting S env s request = visitWaiting S disabled s request := by
  rw [visitWaiting, visitWaiting, mixedWaiting_none h, mixedWaiting_disabled]

theorem visitRunning_decodes {running : List Request} (visited : List Request)
    (h : ∀ r ∈ visited, r.past = false) :
    ∀ {chunks : List Chunk}, (∀ c ∈ chunks, c.decodes = false) →
    ∀ c ∈ visited.foldl (visitRunning S env running) chunks, c.decodes = false := by
  induction visited with
  | nil => exact fun h => h
  | cons r visited ih =>
    intro chunks hchunks
    refine ih (fun r' hr' => h r' (.tail _ hr')) fun c hc => ?_
    rcases List.mem_append.mp hc with hc | hc
    · exact hchunks c hc
    · rw [List.mem_singleton.mp hc, Chunk.decodes, h r (.head _), Bool.false_and]

/-- Two steps that part with the first chunk that decodes, after which the first caps the prompts.
-/
def Parts (cap : ℕ) (chunks chunks' : List Chunk) : Prop :=
  ∃ before d after after', chunks = before ++ d :: after ∧ chunks' = before ++ d :: after' ∧
    (∀ c ∈ before, c.decodes = false) ∧ d.decodes = true ∧ ∀ c ∈ after, Capped cap c

/-- **The waiting loop** is the one without the policy up to the first chunk that decodes. -/
theorem waiting_parts (hcap : mixedPrefillChunk env = some cap) (waiting : List Request)
    (hids : (waiting.map Request.requestId).Nodup) :
    ∀ s : Step, (∀ r ∈ s.running, r.past = false) → (∀ c ∈ s.chunks, c.decodes = false) →
      ((waiting.foldl (visitWaiting S env) s).chunks =
        (waiting.foldl (visitWaiting S disabled) s).chunks ∧
        ∀ c ∈ (waiting.foldl (visitWaiting S env) s).chunks, c.decodes = false) ∨
      Parts cap (waiting.foldl (visitWaiting S env) s).chunks
        (waiting.foldl (visitWaiting S disabled) s).chunks := by
  induction waiting with
  | nil => exact fun _ _ h => .inl ⟨rfl, h⟩
  | cons w waiting ih =>
    intro s hrunning hchunks
    rw [List.map_cons, List.nodup_cons] at hids
    rw [List.foldl_cons, List.foldl_cons, ← visitWaiting_disabled env hrunning w]
    obtain ⟨n, hn, -⟩ := visitWaiting_eq S env s w
    by_cases hd : (⟨w, n⟩ : Chunk).decodes = true
    · -- The request is past its prompt and admitted: from here on it is a peer of the others.
      have hd' := hd
      simp only [Chunk.decodes, Bool.and_eq_true, decide_eq_true_eq] at hd'
      have hpeer : ∃ r ∈ (visitWaiting S env s w).running, r.past = true ∧
          ∀ w' ∈ waiting, r.requestId ≠ w'.requestId := by
        refine ⟨w, ?_, hd'.1, fun w' hw' heq => hids.1 (heq ▸ List.mem_map_of_mem hw')⟩
        rw [hn, if_pos hd'.2]
        exact List.mem_append_right _ (.head _)
      obtain ⟨after, hafter, hall⟩ := capped_waiting (S := S) hcap waiting _ hpeer
      obtain ⟨after', hafter'⟩ := foldl_visitWaiting S disabled waiting (visitWaiting S env s w)
      refine .inr ⟨s.chunks, ⟨w, n⟩, after, after', ?_, ?_, hchunks, hd, hall⟩
      · rw [hafter, hn, List.append_assoc, List.singleton_append]
      · rw [hafter', hn, List.append_assoc, List.singleton_append]
    · refine ih hids.2 _ ?_ ?_
      · rw [hn]
        dsimp only
        split_ifs with hpos
        · simp only [Chunk.decodes, hpos, decide_true, Bool.and_true, Bool.not_eq_true] at hd
          exact List.forall_mem_append.mpr ⟨hrunning, by simpa using hd⟩
        · exact hrunning
      · rw [hn]
        exact List.forall_mem_append.mpr ⟨hchunks, by simpa using hd⟩

/-- **The step** is the one without the policy up to the first chunk that decodes, if no running
request is past its prompt. -/
theorem schedule_parts (hcap : mixedPrefillChunk env = some cap) {running waiting : List Request}
    (hids : ((running ++ waiting).map Request.requestId).Nodup)
    (hpast : ∀ r ∈ running, r.past = false) :
    (schedule S env running waiting = schedule S disabled running waiting ∧
      ∀ c ∈ schedule S env running waiting, c.decodes = false) ∨
    Parts cap (schedule S env running waiting) (schedule S disabled running waiting) := by
  have hvisit : visitRunning S env running = visitRunning S disabled running := by
    funext chunks r
    exact visitRunning_disabled hpast chunks r
  rw [List.map_append] at hids
  have := waiting_parts (S := S) hcap waiting hids.of_append_right
    ⟨running, running.foldl (visitRunning S env running) []⟩ hpast
    (visitRunning_decodes running hpast (by simp))
  unfold schedule
  rwa [← hvisit]

/-! ### When the floor holds -/

/-- The chunks before the first that decodes. -/
def beforeDecode (chunks : List Chunk) : List Chunk := chunks.takeWhile fun c => !c.decodes

theorem beforeDecode_eq {before after : List Chunk} {d : Chunk}
    (h : ∀ c ∈ before, c.decodes = false)
    (hd : d.decodes = true) : beforeDecode (before ++ d :: after) = before := by
  rw [beforeDecode, List.takeWhile_append_of_pos fun c hc => by simp [h c hc],
    List.takeWhile_cons_of_neg (by simp [hd]), List.append_nil]

/-- **When the floor holds.** The policy never holds back a request past its prompt, nor all of the
running ones; and the prompt chunks beside a chunk that decodes are within the cap if and only if
a running request is past its prompt at the start of the step, or without the policy no chunk of a
prompt longer than the cap comes before the first chunk that decodes. -/
theorem decodeFloor_iff (S : Scheduler) {env : Option Text} {cap : ℕ}
    (hcap : mixedPrefillChunk env = some cap) {running waiting : List Request}
    (hids : ((running ++ waiting).map Request.requestId).Nodup) :
    (Floor cap (schedule S env running waiting) ∧
      (∀ request : Request, request.past = true → ∀ running n,
        mixedRunning env running request n = n ∧ mixedWaiting env running request n = some n) ∧
      (running ≠ [] → ∃ r ∈ running, ∀ n, mixedRunning env running r n = n)) ↔
    (∃ r ∈ running, r.past = true) ∨
      ((∃ d ∈ schedule S disabled running waiting, d.decodes = true) →
        ∀ c ∈ beforeDecode (schedule S disabled running waiting), Capped cap c) := by
  have halone : (∀ request : Request, request.past = true → ∀ running n,
        mixedRunning env running request n = n ∧ mixedWaiting env running request n = some n) ∧
      (running ≠ [] → ∃ r ∈ running, ∀ n, mixedRunning env running r n = n) :=
    ⟨fun request h running n => ⟨mixedRunning_past h running n, mixedWaiting_past h running n⟩,
      exists_not_held⟩
  rw [and_iff_left halone]
  by_cases hpast : ∃ r ∈ running, r.past = true
  · exact ⟨fun _ => .inl hpast, fun _ c hc hprompt _ =>
      schedule_of_past hcap hids hpast c hc hprompt⟩
  · rw [or_iff_right hpast]
    have hpast' : ∀ r ∈ running, r.past = false := by simpa using hpast
    rcases schedule_parts (S := S) hcap hids hpast' with ⟨heq, hno⟩
      | ⟨before, d, after, after', h, h', hno, hd, hall⟩
    · have hnone : ¬ ∃ d ∈ schedule S env running waiting, d.decodes = true := by simpa using hno
      exact ⟨fun _ hex => absurd (heq ▸ hex) hnone, fun _ c _ _ hex => absurd hex hnone⟩
    · have hdmem : ∀ after : List Chunk, d ∈ before ++ d :: after := fun _ =>
        List.mem_append_right _ (.head _)
      rw [h, h', beforeDecode_eq hno hd]
      constructor
      · exact fun hfloor _ c hc hprompt =>
          hfloor c (List.mem_append_left _ hc) hprompt ⟨d, hdmem _, hd⟩
      · intro hbefore c hc hprompt _
        rcases List.mem_append.mp hc with hc | hc
        · exact hbefore ⟨d, hdmem _, hd⟩ c hc hprompt
        · rcases List.mem_cons.mp hc with rfl | hc
          · simp [Chunk.decodes, hprompt] at hd
          · exact hall c hc hprompt

/-! ### Two steps -/

/-- A scheduler with a budget of tokens for the step; a request that decodes takes 8. -/
def budgeted (budget : ℤ) : Scheduler where
  longPrefillTokenThreshold := 0
  numNewTokens _ r := if r.past then 8 else r.numPromptTokens - r.numComputedTokens
  tokenBudget chunks := budget - (chunks.map Chunk.numTokens).sum
  inputBudget chunks := budget - (chunks.map Chunk.numTokens).sum
  draftSlots _ := 0
  granted chunks _ n := (min n (budget - (chunks.map Chunk.numTokens).sum)).toNat
  granted_le _ _ _ := by omega

/-- Beside a running request past its prompt a waiting prefill is skipped. -/
theorem decodeFloor_skip :
    Floor 0 (schedule (budgeted 1024) none [⟨0, 20, 10⟩] [⟨1, 0, 5000⟩]) :=
  ((decodeFloor_iff (budgeted 1024) (show mixedPrefillChunk none = some 0 by decide)
    (by decide)).mpr
    (.inl ⟨⟨0, 20, 10⟩, by decide⟩)).1

/-- A prefill is admitted first, and then a resumed request past its prompt: both are scheduled. -/
theorem decodeFloor_resumed :
    mixedPrefillChunk none = some 0 ∧
      ¬ Floor 0 (schedule (budgeted 1024) none [] [⟨0, 0, 1000⟩, ⟨1, 20, 10⟩]) := by
  decide

end Glm53Serve.DecodeFloor
