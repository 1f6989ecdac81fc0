import Glm53Serve.Lib.Run
import Mathlib.Data.Int.Notation
import Mathlib.Data.List.Nodup
import Mathlib.Logic.Function.Basic

/-!
# Requests that are not stored

What `patch_apc_no_store.py` puts into the server: the client sets `skip_writing_prefix_cache`, the
API server checks it, the engine resolves it once when it makes the request, and the two sites of
the block pool at which a request inserts a hash return early for it.

## The model

A run is any order of submissions and of calls of the two sites. What the sites do once they do not
return early is the pool's own: `storeFull` and `storePartial`. The log is the list of its lines;
`info_once` is vLLM's, of which a `Logger` has what its documentation says.

## What is proved

* `resolve_validated` — what the engine resolves of parameters that the API server has let through.
* `run_eq_stock` — the pool is as the stock server has it from the calls of the other requests
  alone.
* `receipts_exact` — what the receipts in the log say of the run.
-/

namespace Glm53Serve.KvPool.NoStore

/-! ### The flag -/

/-- A value of the flag, as Python has it. -/
inductive Value where
  | none
  | bool (b : Bool)
  | int (n : ℤ)
  | str (s : String)
  /-- A float, a list, a dictionary, bytes. -/
  | other (repr : String)
  deriving DecidableEq, Repr

/-- The `ValueError` of the strict parser: where the value was and what it was. -/
structure FlagError where
  loc : String
  got : Value
  deriving DecidableEq, Repr

/-- `\x7bvalue!r\x7d`, given that of a string. -/
def Value.repr (reprStr : String → String) : Value → String
  | .none => "None"
  | .bool b => if b then "True" else "False"
  | .int n => toString n
  | .str s => reprStr s
  | .other r => r

def FlagError.message (reprStr : String → String) (e : FlagError) : String :=
  e.loc ++ " must be 0 or 1 (int), \"0\"/\"1\" (str) or a JSON boolean; got " ++
    e.got.repr reprStr ++ "."

/-- `_glm53_parse_no_store`. -/
def parseNoStore (value : Value) (loc : String) : Except FlagError Bool :=
  match value with
  | .bool b => .ok b
  | .int n => if n = 0 ∨ n = 1 then .ok (n ≠ 0) else .error ⟨loc, value⟩
  | .str s => if s = "0" ∨ s = "1" then .ok (s = "1") else .error ⟨loc, value⟩
  | .none => .error ⟨loc, value⟩
  | .other _ => .error ⟨loc, value⟩

def noStoreKey : String := "skip_writing_prefix_cache"

def typedLoc : String := "SamplingParams.skip_writing_prefix_cache"

def xargsLoc : String := "vllm_xargs[\"skip_writing_prefix_cache\"]"

/-- `_glm53_no_store_env`: the kill switch, read when the module is imported. -/
def noStoreEnv (raw : Option String) : Except String Bool :=
  match raw with
  | none => .ok true
  | some raw => if raw = "0" ∨ raw = "1" then .ok (raw = "1") else .error raw

/-- The fields of `SamplingParams` that the flag uses; the items of a dictionary have different
keys. -/
structure SamplingParams where
  skipWritingPrefixCache : Value
  extraArgs : Option (List (String × Value))

/-- `extra_args` has the key, and this is its value. -/
def SamplingParams.extra (params : SamplingParams) : Option Value :=
  params.extraArgs.bind (·.lookup noStoreKey)

/-- Where the engine looks for the flag: at the typed field first, then in `extra_args`. -/
def SamplingParams.found (params : SamplingParams) : Option (Value × String) :=
  if params.skipWritingPrefixCache = .none then params.extra.map (·, xargsLoc)
  else some (params.skipWritingPrefixCache, typedLoc)

/-- The check of `extra_args`, which are left as sent. -/
def checkExtra (params : SamplingParams) : Except FlagError SamplingParams :=
  match params.extra with
  | none => .ok params
  | some value => (parseNoStore value xargsLoc).map fun _ => params

/-- `_glm53_validate_no_store_params`, with the parameters that it leaves. -/
def validateNoStoreParams (params : SamplingParams) : Except FlagError SamplingParams :=
  if params.skipWritingPrefixCache = .none then checkExtra params
  else do
    let typed ← parseNoStore params.skipWritingPrefixCache typedLoc
    checkExtra { params with skipWritingPrefixCache := .bool typed }

/-! ### The log -/

/-- The site of a store that is cut. -/
inductive Site where
  | full
  | partialTail
  deriving DecidableEq, Repr

/-- A line of the log. -/
inductive LogLine (Id : Type*) where
  /-- The warning of `_glm53_resolve_no_store`: `{exc} -- request {id} stores normally`. -/
  | storesNormally (error : FlagError) (id : Id)
  /-- `info_once`: `ignoring skip_writing_prefix_cache=1: GLM53_APC_NO_STORE=0`. -/
  | ignoring
  /-- `debug`: `ignored for request {id}`. -/
  | ignored (id : Id)
  /-- `info_once`: `first request resolved skip_writing_prefix_cache=1`. -/
  | firstResolved
  /-- `debug`: `request {id} is no-store`. -/
  | isNoStore (id : Id)
  /-- `info_once`: `suppressing prefix-cache store ({site} site)`. -/
  | suppressing (site : Site)
  /-- `debug`: `{site} store suppressed for request {id}`. -/
  | suppressed (site : Site) (id : Id)
  deriving DecidableEq, Repr

/-- The lines of `info_once`. -/
def LogLine.isReceipt {Id : Type*} : LogLine Id → Bool
  | .ignoring => true
  | .firstResolved => true
  | .suppressing _ => true
  | _ => false

abbrev Log (Id : Type*) := List (LogLine Id)

/-- `logger.info_once`: later calls with the same message and arguments are dropped. -/
structure Logger (Id : Type*) where
  infoOnce : Log Id → LogLine Id → Log Id
  infoOnce_first : ∀ {log line}, line ∉ log → infoOnce log line = log ++ [line]
  infoOnce_again : ∀ {log line}, line ∈ log → infoOnce log line = log

instance {Id : Type*} [DecidableEq Id] : Inhabited (Logger Id) where
  default :=
    { infoOnce := fun log line => if line ∈ log then log else log ++ [line]
      infoOnce_first := fun h => if_neg h
      infoOnce_again := fun h => if_pos h }

section Log

variable {Id : Type*} (logger : Logger Id)

/-- `logger.warning` and `logger.debug`. -/
def Log.write (log : Log Id) (line : LogLine Id) : Log Id := log ++ [line]

/-- `_glm53_resolve_no_store` with the kill switch `enabled`: whether the request is no-store, and
the log. -/
def resolveNoStore (enabled : Bool) (params : Option SamplingParams) (id : Id) (log : Log Id) :
    Bool × Log Id :=
  match params with
  | none => (false, log)
  | some params =>
    match params.found with
    | none => (false, log)
    | some (raw, loc) =>
      match parseNoStore raw loc with
      | .error e => (false, log.write (.storesNormally e id))
      | .ok value =>
        if value = false then (false, log)
        else if enabled = false then (false, (logger.infoOnce log .ignoring).write (.ignored id))
        else (true, (logger.infoOnce log .firstResolved).write (.isNoStore id))

/-- `_glm53_log_nostore`. -/
def logNoStore (id : Id) (site : Site) (log : Log Id) : Log Id :=
  (logger.infoOnce log (.suppressing site)).write (.suppressed site id)

end Log

/-! ### The block pool -/

/-- A call of `cache_full_blocks`: the two counts that it compares and the other arguments. -/
structure FullCall (F : Type*) where
  numCachedBlocks : ℕ
  numFullBlocks : ℕ
  args : F

/-- A call of `cache_partial_block`. -/
structure PartialCall (P : Type*) where
  isNull : Bool
  args : P

/-- What the two sites do for a request once they do not return early; `cache_partial_block` may
raise. -/
structure Stores (Id Pool F P H E : Type*) where
  storeFull : Id → FullCall F → Pool → Pool
  storePartial : Id → PartialCall P → Pool → Except E H × Pool

section Pool

variable {Id Pool F P H E : Type*} (st : Stores Id Pool F P H E) (logger : Logger Id)

/-- `BP_FULL_OLD`: `cache_full_blocks` of the stock pool. -/
def stockFull (id : Id) (call : FullCall F) (pool : Pool) : Pool :=
  if call.numCachedBlocks ≥ call.numFullBlocks then pool else st.storeFull id call pool

/-- `BP_FULL_NEW`: `cache_full_blocks` of a request with the flag. -/
def cacheFullBlocks (skipWriting : Bool) (id : Id) (call : FullCall F) (pool : Pool)
    (log : Log Id) :
    Pool × Log Id :=
  if call.numCachedBlocks ≥ call.numFullBlocks then (pool, log)
  else if skipWriting then (pool, logNoStore logger id .full log)
  else (st.storeFull id call pool, log)

/-- `BP_PARTIAL_OLD`: `cache_partial_block` of the stock pool. -/
def stockPartial (id : Id) (call : PartialCall P) (pool : Pool) : Except E (Option H) × Pool :=
  if call.isNull then (.ok none, pool)
  else ((st.storePartial id call pool).1.map some, (st.storePartial id call pool).2)

/-- `BP_PARTIAL_NEW`: `cache_partial_block` of a request with the flag. -/
def cachePartialBlock (skipWriting : Bool) (id : Id) (call : PartialCall P) (pool : Pool)
    (log : Log Id) :
    Except E (Option H) × Pool × Log Id :=
  if call.isNull then (.ok none, pool, log)
  else if skipWriting then (.ok none, pool, logNoStore logger id .partialTail log)
  else ((st.storePartial id call pool).1.map some, (st.storePartial id call pool).2, log)

/-- Without the flag the site is the stock one. -/
theorem cacheFullBlocks_false (id : Id) (call : FullCall F) (pool : Pool) (log : Log Id) :
    cacheFullBlocks st logger false id call pool log = (stockFull st id call pool, log) := by
  unfold cacheFullBlocks stockFull
  by_cases h : call.numCachedBlocks ≥ call.numFullBlocks
  · rw [if_pos h, if_pos h]
  · rw [if_neg h, if_neg h]
    rfl

/-- With the flag nothing is stored. -/
theorem cacheFullBlocks_true (id : Id) (call : FullCall F) (pool : Pool) (log : Log Id) :
    cacheFullBlocks st logger true id call pool log =
      (pool, if call.numCachedBlocks ≥ call.numFullBlocks then
        log else logNoStore logger id .full log) := by
  unfold cacheFullBlocks
  by_cases h : call.numCachedBlocks ≥ call.numFullBlocks
  · rw [if_pos h, if_pos h]
  · rw [if_neg h, if_neg h]
    rfl

theorem cachePartialBlock_false (id : Id) (call : PartialCall P) (pool : Pool) (log : Log Id) :
    cachePartialBlock st logger false id call pool log =
      ((stockPartial st id call pool).1, (stockPartial st id call pool).2, log) := by
  unfold cachePartialBlock stockPartial
  cases call.isNull <;> rfl

theorem cachePartialBlock_true (id : Id) (call : PartialCall P) (pool : Pool) (log : Log Id) :
    cachePartialBlock st logger true id call pool log =
      (.ok none, pool, if call.isNull then log else logNoStore logger id .partialTail log) := by
  unfold cachePartialBlock
  cases call.isNull <;> rfl

/-! ### The server -/

/-- What reaches the server: a client submits a request, or the engine comes to one of the sites for
it. -/
inductive Event (Id F P : Type*) where
  | submit (id : Id)
  | full (id : Id) (call : FullCall F)
  | partialTail (id : Id) (call : PartialCall P)

/-- The state of the server. -/
structure Server (Id Pool H E : Type*) where
  /-- `Request.skip_writing_prefix_cache` of the requests that have been made. -/
  requests : Id → Option Bool
  pool : Pool
  /-- What `cache_partial_block` has returned or raised, and for which request. -/
  partials : List (Id × Except E (Option H))
  /-- The submissions that were answered with a 400. -/
  rejected : List (Id × FlagError)
  log : Log Id

variable (params : Id → Option SamplingParams)

/-- What the API server makes of the parameters of a request; a pooling request has none. -/
def validated (id : Id) : Except FlagError (Option SamplingParams) :=
  match params id with
  | none => .ok none
  | some p => (validateNoStoreParams p).map some

variable [DecidableEq Id]

/-- One event at the patched server. -/
def step (enabled : Bool) (s : Server Id Pool H E) (e : Event Id F P) : Server Id Pool H E :=
  match e with
  | .submit id =>
    match validated params id with
    | .error err => { s with rejected := s.rejected ++ [(id, err)] }
    | .ok p =>
      let r := resolveNoStore logger enabled p id s.log
      { s with requests := Function.update s.requests id (some r.1), log := r.2 }
  | .full id call =>
    match s.requests id with
    | none => s
    | some skip =>
      let r := cacheFullBlocks st logger skip id call s.pool s.log
      { s with pool := r.1, log := r.2 }
  | .partialTail id call =>
    match s.requests id with
    | none => s
    | some skip =>
      let r := cachePartialBlock st logger skip id call s.pool s.log
      { s with pool := r.2.1, log := r.2.2, partials := s.partials ++ [(id, r.1)] }

/-- One event at the stock server, which does not look at the flag. -/
def stockStep (s : Server Id Pool H E) (e : Event Id F P) : Server Id Pool H E :=
  match e with
  | .submit id => { s with requests := Function.update s.requests id (some false) }
  | .full id call =>
    match s.requests id with
    | none => s
    | some _ => { s with pool := stockFull st id call s.pool }
  | .partialTail id call =>
    match s.requests id with
    | none => s
    | some _ =>
      let r := stockPartial st id call s.pool
      { s with pool := r.2, partials := s.partials ++ [(id, r.1)] }

/-- The server when it has started. -/
def start (pool : Pool) : Server Id Pool H E :=
  { requests := fun _ => none, pool := pool, partials := [], rejected := [], log := [] }

end Pool

/-! ### What the client asks for -/

/-- The values that stand for `1`. -/
def Value.asks : Value → Bool
  | .bool b => b
  | .int n => n = 1
  | .str s => s = "1"
  | _ => false

/-- The client asks not to be stored: the typed field decides where it is set, and `extra_args`
elsewhere. -/
def SamplingParams.asks (p : SamplingParams) : Bool :=
  (if p.skipWritingPrefixCache = .none then p.extra
    else some p.skipWritingPrefixCache).any Value.asks

section Flag

variable {value : Value} {loc : String} {b : Bool} {p q : SamplingParams}

theorem parseNoStore_asks (h : parseNoStore value loc = .ok b) : b = value.asks := by
  cases value with
  | bool b' =>
    cases h
    rfl
  | int n =>
    by_cases hn : n = 0 ∨ n = 1
    · rw [parseNoStore, if_pos hn] at h
      rcases hn with rfl | rfl <;> simpa [Value.asks] using h.symm
    · rw [parseNoStore, if_neg hn] at h
      cases h
  | str s =>
    by_cases hs : s = "0" ∨ s = "1"
    · rw [parseNoStore, if_pos hs] at h
      simpa [Value.asks] using h.symm
    · rw [parseNoStore, if_neg hs] at h
      cases h
  | none => cases h
  | other r => cases h

/-- The kill switch is on where it is unset or `1`, and off where it is `0`. -/
theorem noStoreEnv_eq_ok {raw : Option String} :
    noStoreEnv raw = .ok b ↔ (raw = none ∧ b = true) ∨ raw = some (if b then "1" else "0") := by
  cases raw with
  | none => cases b <;> simp [noStoreEnv]
  | some raw =>
    by_cases hraw : raw = "0" ∨ raw = "1"
    · rcases hraw with rfl | rfl <;> cases b <;> simp [noStoreEnv]
    · rw [noStoreEnv, if_neg hraw]
      cases b <;> simp_all

theorem checkExtra_ok (h : checkExtra p = .ok q) :
    q = p ∧ ∀ value ∈ p.extra, parseNoStore value xargsLoc = .ok value.asks := by
  unfold checkExtra at h
  split at h
  · rename_i hnone
    cases h
    exact ⟨rfl, by simp [hnone]⟩
  · rename_i value hsome
    cases hvalue : parseNoStore value xargsLoc with
    | error e =>
      rw [hvalue] at h
      cases h
    | ok b =>
      rw [hvalue] at h
      cases h
      refine ⟨rfl, fun v hv => ?_⟩
      obtain rfl : value = v := Option.some.inj (hsome.symm.trans hv)
      rw [hvalue, parseNoStore_asks hvalue]

/-- What the check lets through: the typed field is unset or a boolean then, and the other place
holds a flag where it is set. -/
theorem validateNoStoreParams_ok (h : validateNoStoreParams p = .ok q) :
    q.extra = p.extra ∧
      (q.skipWritingPrefixCache = if p.skipWritingPrefixCache = .none then .none
        else .bool p.skipWritingPrefixCache.asks) ∧
      ∀ value ∈ p.extra, parseNoStore value xargsLoc = .ok value.asks := by
  unfold validateNoStoreParams at h
  by_cases hnone : p.skipWritingPrefixCache = .none
  · rw [if_pos hnone] at h
    obtain ⟨rfl, hextra⟩ := checkExtra_ok h
    exact ⟨rfl, by rw [if_pos hnone, hnone], hextra⟩
  · rw [if_neg hnone] at h
    cases htyped : parseNoStore p.skipWritingPrefixCache typedLoc with
    | error e =>
      rw [htyped] at h
      cases h
    | ok b =>
      rw [htyped] at h
      obtain ⟨rfl, hextra⟩ := checkExtra_ok h
      exact ⟨rfl, by rw [if_neg hnone, ← parseNoStore_asks htyped], hextra⟩

/-- The flag that the engine finds, and where. -/
theorem found_validated (h : validateNoStoreParams p = .ok q) :
    (q.found = none ∧ p.asks = false) ∨ ∃ raw loc, q.found = some (raw, loc) ∧
      parseNoStore raw loc = .ok p.asks := by
  obtain ⟨hextra, htyped, hvalues⟩ := validateNoStoreParams_ok h
  unfold SamplingParams.found SamplingParams.asks
  by_cases hnone : p.skipWritingPrefixCache = .none
  · simp only [htyped, if_pos hnone, if_pos, hextra]
    cases hp : p.extra with
    | none => exact .inl ⟨rfl, rfl⟩
    | some value => exact .inr ⟨value, xargsLoc, rfl, by simpa using hvalues value hp⟩
  · rw [htyped, if_neg hnone, if_neg (by simp), if_neg hnone]
    exact .inr ⟨_, typedLoc, rfl, rfl⟩

/-- The engine resolves the flag of parameters that were let through without a warning. -/
theorem resolve_validated {Id : Type*} {logger : Logger Id} (enabled : Bool)
    (h : validateNoStoreParams p = .ok q)
    (id : Id) (log : Log Id) :
    resolveNoStore logger enabled (some q) id log =
      if p.asks = false then (false, log)
      else if enabled = false then (false, (logger.infoOnce log .ignoring).write (.ignored id))
      else (true, (logger.infoOnce log .firstResolved).write (.isNoStore id)) := by
  unfold resolveNoStore
  rcases found_validated h with ⟨hfound, hasks⟩ | ⟨raw, loc, hfound, hraw⟩
  · simp only [hfound, hasks, if_pos]
  · simp only [hfound, hraw]

end Flag

section Runs

variable {Id Pool F P H E : Type*} [DecidableEq Id] (st : Stores Id Pool F P H E)
  {logger : Logger Id} (params : Id → Option SamplingParams) (enabled : Bool)

def Event.id : Event Id F P → Id
  | .submit id => id
  | .full id _ => id
  | .partialTail id _ => id

/-- The client of the request asks not to be stored. -/
def asked (id : Id) : Bool := (params id).any SamplingParams.asks

/-- The request is let through and its blocks may be stored. -/
def stored (id : Id) : Bool :=
  match validated params id with
  | .error _ => false
  | .ok _ => !(enabled && asked params id)

omit [DecidableEq Id] in
theorem resolve_id {params : Id → Option SamplingParams} {id : Id} {p : Option SamplingParams}
    (h : validated params id = .ok p) (log : Log Id) :
    resolveNoStore logger enabled p id log =
      if asked params id = false then (false, log)
      else if enabled = false then (false, (logger.infoOnce log .ignoring).write (.ignored id))
      else (true, (logger.infoOnce log .firstResolved).write (.isNoStore id)) := by
  unfold validated at h
  unfold asked
  cases hp : params id with
  | none =>
    rw [hp] at h
    cases h
    rfl
  | some p₀ =>
    rw [hp] at h
    cases hv : validateNoStoreParams p₀ with
    | error e =>
      simp only [hv] at h
      cases h
    | ok q =>
      simp only [hv] at h
      cases h
      exact resolve_validated enabled hv id log

omit [DecidableEq Id] in
theorem resolve_fst {params : Id → Option SamplingParams} {id : Id} {p : Option SamplingParams}
    (h : validated params id = .ok p) (log : Log Id) :
    (resolveNoStore logger enabled p id log).1 = (enabled && asked params id) := by
  rw [resolve_id enabled h]
  cases asked params id <;> cases enabled <;> rfl

/-! ### The pool -/

variable {enabled params}

/-- The requests of the patched server have the flag that their clients asked for. -/
def Resolved (params : Id → Option SamplingParams) (enabled : Bool)
    (s : Server Id Pool H E) : Prop :=
  ∀ id skip, s.requests id = some skip → (∃ p, validated params id = .ok p) ∧
    skip = (enabled && asked params id)

omit [DecidableEq Id] in
theorem Resolved.stored {s : Server Id Pool H E} (h : Resolved params enabled s) {id : Id}
    {skip : Bool}
    (hid : s.requests id = some skip) : NoStore.stored params enabled id = !skip := by
  obtain ⟨⟨p, hp⟩, rfl⟩ := h id skip hid
  simp only [NoStore.stored, hp]

theorem step_requests_submit {id : Id} {p : Option SamplingParams}
    (hp : validated params id = .ok p)
    (s : Server Id Pool H E) :
    (step st logger params enabled s (.submit id)).requests
      = Function.update s.requests id (some (enabled && asked params id)) := by
  simp only [step, hp, resolve_fst enabled hp]

theorem step_requests_call {s : Server Id Pool H E} {e : Event Id F P}
    (h : ∀ id p, e = .submit id → validated params id ≠ .ok p) :
    (step st logger params enabled s e).requests = s.requests := by
  cases e with
  | submit id =>
    cases hv : validated params id with
    | error err => simp only [step, hv]
    | ok p => exact absurd hv (h id p rfl)
  | full id call => cases hs : s.requests id <;> simp [step, hs]
  | partialTail id call => cases hs : s.requests id <;> simp [step, hs]

theorem step_resolved {s : Server Id Pool H E} (h : Resolved params enabled s) (e : Event Id F P) :
    Resolved params enabled (step st logger params enabled s e) := by
  by_cases hsub : ∃ id p, e = .submit id ∧ validated params id = .ok p
  · obtain ⟨id, p, rfl, hp⟩ := hsub
    intro id' skip hskip
    rw [step_requests_submit st hp] at hskip
    by_cases hid : id' = id
    · subst hid
      rw [Function.update_self] at hskip
      exact ⟨⟨p, hp⟩, (Option.some.inj hskip).symm⟩
    · rw [Function.update_of_ne hid] at hskip
      exact h id' skip hskip
  · intro id' skip hskip
    rw [step_requests_call st fun id p he hp => hsub ⟨id, p, he, hp⟩] at hskip
    exact h id' skip hskip

/-- What the patched server and a stock server that is without some requests agree on. -/
structure Agrees (params : Id → Option SamplingParams) (enabled : Bool)
    (s t : Server Id Pool H E) : Prop where
  resolved : Resolved params enabled s
  requests : ∀ id, stored params enabled id = true → s.requests id = t.requests id
  pool : s.pool = t.pool
  partials : s.partials.filter (fun r => stored params enabled r.1) = t.partials
  /-- The others have been given no partial entry. -/
  others : ∀ r ∈ s.partials, stored params enabled r.1 = false → r.2 = .ok none

omit [DecidableEq Id] in
theorem agrees_start (pool : Pool) :
    Agrees params enabled (start pool : Server Id Pool H E) (start pool) where
  resolved := by
    intro id skip h
    simp [start] at h
  requests := fun _ _ => rfl
  pool := rfl
  partials := rfl
  others := by simp [start]

theorem Agrees.kept {s t : Server Id Pool H E} (h : Agrees params enabled s t) {e : Event Id F P}
    (he : stored params enabled e.id = true) :
    Agrees params enabled (step st logger params enabled s e) (stockStep st t e) := by
  have hresolved : Resolved params enabled (step st logger params enabled s e) :=
    step_resolved st h.resolved e
  cases e with
  | submit id =>
    cases hv : validated params id with
    | error err => simp [Event.id, stored, hv] at he
    | ok p =>
      have hskip : (enabled && asked params id) = false := by
        simpa only [Event.id, stored, hv, Bool.not_eq_true'] using he
      refine ⟨hresolved, fun id' hid' => ?_, ?_, ?_, ?_⟩
      · rw [step_requests_submit st hv, hskip]
        simp only [stockStep, Function.update_apply, h.requests id' hid']
      · simpa [step, hv, stockStep] using h.pool
      · simpa [step, hv, stockStep] using h.partials
      · simpa [step, hv] using h.others
  | full id call =>
    have hid : s.requests id = t.requests id := h.requests id he
    cases hs : s.requests id with
    | none => simpa [step, stockStep, hs, ← hid] using h
    | some skip =>
      obtain rfl : skip = false := by simpa [Event.id, h.resolved.stored hs] using he
      refine ⟨hresolved, fun id' hid' => ?_, ?_, ?_, ?_⟩
      · simpa [step, stockStep, hs, ← hid] using h.requests id' hid'
      · simp only [step, stockStep, hs, ← hid, cacheFullBlocks_false, h.pool]
      · simpa [step, stockStep, hs, ← hid] using h.partials
      · simpa [step, hs] using h.others
  | partialTail id call =>
    have hid : s.requests id = t.requests id := h.requests id he
    cases hs : s.requests id with
    | none => simpa [step, stockStep, hs, ← hid] using h
    | some skip =>
      obtain rfl : skip = false := by simpa [Event.id, h.resolved.stored hs] using he
      refine ⟨hresolved, fun id' hid' => ?_, ?_, ?_, ?_⟩
      · simpa [step, stockStep, hs, ← hid] using h.requests id' hid'
      · simp only [step, stockStep, hs, ← hid, cachePartialBlock_false, h.pool]
      · simp only [step, stockStep, hs, ← hid, List.filter_append, h.partials,
          cachePartialBlock_false, h.pool]
        exact congrArg _ (List.filter_cons_of_pos he)
      · intro r hr hnot
        simp only [step, hs, List.mem_append, List.mem_singleton] at hr
        rcases hr with hr | rfl
        · exact h.others r hr hnot
        · exact absurd he (by simp [Event.id, hnot])

theorem Agrees.dropped {s t : Server Id Pool H E} (h : Agrees params enabled s t) {e : Event Id F P}
    (he : stored params enabled e.id = false) :
    Agrees params enabled (step st logger params enabled s e) t := by
  have hresolved : Resolved params enabled (step st logger params enabled s e) :=
    step_resolved st h.resolved e
  cases e with
  | submit id =>
    cases hv : validated params id with
    | error err =>
      simp only [step, hv] at hresolved ⊢
      exact ⟨hresolved, h.requests, h.pool, h.partials, h.others⟩
    | ok p =>
      refine ⟨hresolved, fun id' hid' => ?_, ?_, ?_, ?_⟩
      · have hne : id' ≠ id := by
          rintro rfl
          rw [Event.id, hid'] at he
          cases he
        rw [step_requests_submit st hv, Function.update_of_ne hne]
        exact h.requests id' hid'
      · simpa [step, hv] using h.pool
      · simpa [step, hv] using h.partials
      · simpa [step, hv] using h.others
  | full id call =>
    cases hs : s.requests id with
    | none => simpa [step, hs] using h
    | some skip =>
      obtain rfl : skip = true := by simpa [Event.id, h.resolved.stored hs] using he
      refine ⟨hresolved, fun id' hid' => ?_, ?_, ?_, ?_⟩
      · simpa [step, hs] using h.requests id' hid'
      · simpa [step, hs, cacheFullBlocks_true] using h.pool
      · simpa [step, hs] using h.partials
      · simpa [step, hs] using h.others
  | partialTail id call =>
    cases hs : s.requests id with
    | none => simpa [step, hs] using h
    | some skip =>
      obtain rfl : skip = true := by simpa [Event.id, h.resolved.stored hs] using he
      refine ⟨hresolved, fun id' hid' => ?_, ?_, ?_, ?_⟩
      · simpa [step, hs] using h.requests id' hid'
      · simpa [step, hs, cachePartialBlock_true] using h.pool
      · simp only [step, hs, List.filter_append, h.partials]
        rw [List.filter_cons_of_neg (by simpa [Event.id] using he), List.filter_nil,
          List.append_nil]
      · intro r hr hnot
        simp only [step, hs, List.mem_append, List.mem_singleton] at hr
        rcases hr with hr | rfl
        · exact h.others r hr hnot
        · rw [cachePartialBlock_true]

/-- **The pool is the other requests' alone.** In any run, what the pool holds and what
`cache_partial_block` returns to the requests that may be stored is what the stock server has from
their events alone. The requests that are not stored, and those that are turned away, leave no trace
of themselves, and `cache_partial_block` returns nothing to them. -/
theorem run_eq_stock (pool : Pool) (es : List (Event Id F P)) :
    Agrees params enabled (Run.run (step st logger params enabled) (start pool) es)
      (Run.run (stockStep st) (start pool) (es.filter fun e => stored params enabled e.id)) :=
  Run.run_filter (fun _ _ _ h he => h.kept st he) (fun _ _ _ h he => h.dropped st he)
    (agrees_start pool) es

/-! ### The receipts -/

omit [DecidableEq Id] in
theorem mem_infoOnce {log : Log Id} {line l : LogLine Id} :
    l ∈ logger.infoOnce log line ↔ l ∈ log ∨ l = line := by
  by_cases h : line ∈ log
  · rw [logger.infoOnce_again h]
    exact ⟨.inl, fun hl => hl.elim id fun heq => heq ▸ h⟩
  · rw [logger.infoOnce_first h, List.mem_append, List.mem_singleton]

omit [DecidableEq Id] in
theorem mem_write {log : Log Id} {line l : LogLine Id} : l ∈ log.write line ↔
    l ∈ log ∨ l = line := by
  rw [Log.write, List.mem_append, List.mem_singleton]

omit [DecidableEq Id] in
theorem mem_logNoStore {log : Log Id} {id : Id} {site : Site} {l : LogLine Id} :
    l ∈ logNoStore logger id site log ↔ l ∈ log ∨ l = .suppressing site ∨
      l = .suppressed site id := by
  rw [logNoStore, mem_write, mem_infoOnce, or_assoc]

/-- A request is made whose client asks not to be stored. -/
def Asks (params : Id → Option SamplingParams) (id : Id) : Prop :=
  (∃ p, validated params id = .ok p) ∧ asked params id = true

/-- A store of a no-store request is cut at the site. -/
def Cut (s : Server Id Pool H E) (e : Event Id F P) (site : Site) : Prop :=
  match e with
  | .submit _ => False
  | .full id call =>
    s.requests id = some true ∧ call.numCachedBlocks < call.numFullBlocks ∧ site = .full
  | .partialTail id call => s.requests id = some true ∧ call.isNull = false ∧ site = .partialTail

/-- The lines that an event writes. -/
def Writes (params : Id → Option SamplingParams) (enabled : Bool) (s : Server Id Pool H E)
    (e : Event Id F P)
    (l : LogLine Id) : Prop :=
  match l with
  | .storesNormally _ _ => False
  | .ignoring => ∃ id, e = .submit id ∧ Asks params id ∧ enabled = false
  | .ignored id => e = .submit id ∧ Asks params id ∧ enabled = false
  | .firstResolved => ∃ id, e = .submit id ∧ Asks params id ∧ enabled = true
  | .isNoStore id => e = .submit id ∧ Asks params id ∧ enabled = true
  | .suppressing site => Cut s e site
  | .suppressed site id => Cut s e site ∧ e.id = id

omit [DecidableEq Id] in
theorem mem_resolve_log {id : Id} {p : Option SamplingParams} (hp : validated params id = .ok p)
    (log : Log Id)
    (l : LogLine Id) :
    l ∈ (resolveNoStore logger enabled p id log).2 ↔
      l ∈ log ∨ asked params id = true ∧
        (enabled = false ∧ (l = .ignoring ∨ l = .ignored id) ∨
          enabled = true ∧ (l = .firstResolved ∨ l = .isNoStore id)) := by
  rw [resolve_id enabled hp]
  cases asked params id with
  | false => simp
  | true => cases enabled <;> simp [mem_write, mem_infoOnce, or_assoc]

theorem mem_step_log (s : Server Id Pool H E) (e : Event Id F P) (l : LogLine Id) :
    l ∈ (step st logger params enabled s e).log ↔ l ∈ s.log ∨ Writes params enabled s e l := by
  cases e with
  | submit id =>
    cases hv : validated params id with
    | error err =>
      have hasks : ¬Asks params id := by
        rintro ⟨⟨p, hp⟩, -⟩
        simp [hv] at hp
      cases l with
      | ignored id' | isNoStore id' =>
        simp only [step, hv, Writes, Event.submit.injEq]
        refine ⟨.inl, fun h => h.resolve_right ?_⟩
        rintro ⟨rfl, hask, -⟩
        exact hasks hask
      | _ => simp [Writes, Cut, step, hv, hasks]
    | ok p =>
      simp only [step, hv, mem_resolve_log hv]
      refine or_congr_right ?_
      cases l with
      | ignored id' | isNoStore id' =>
        constructor
        · rintro ⟨hask, hline⟩
          obtain ⟨-, rfl⟩ : _ ∧ id' = id := by simpa using hline
          simp_all [Writes, Asks]
        · rintro ⟨he, hasks, henabled⟩
          cases he
          exact ⟨hasks.2, by simp [henabled]⟩
      | _ => simp [Writes, Asks, Cut, hv, and_comm]
  | full id call =>
    cases hs : s.requests id with
    | none => cases l <;> simp [Writes, Cut, step, hs]
    | some skip =>
      cases skip with
      | false => cases l <;> simp [Writes, Cut, step, hs, cacheFullBlocks_false]
      | true =>
        simp only [step, hs, cacheFullBlocks_true]
        by_cases hfull : call.numCachedBlocks ≥ call.numFullBlocks
        · rw [if_pos hfull]
          cases l <;> simp [Writes, Cut, Nat.not_lt.mpr hfull]
        · rw [if_neg hfull, mem_logNoStore]
          refine or_congr_right ?_
          cases l <;> simp [Writes, Cut, Event.id, hs, Nat.lt_of_not_le hfull, eq_comm]
  | partialTail id call =>
    cases hs : s.requests id with
    | none => cases l <;> simp [Writes, Cut, step, hs]
    | some skip =>
      cases skip with
      | false => cases l <;> simp [Writes, Cut, step, hs, cachePartialBlock_false]
      | true =>
        simp only [step, hs, cachePartialBlock_true]
        cases hnull : call.isNull with
        | true => cases l <;> simp [Writes, Cut, hnull]
        | false =>
          rw [if_neg Bool.false_ne_true, mem_logNoStore]
          refine or_congr_right ?_
          cases l <;> simp [Writes, Cut, Event.id, hs, hnull, eq_comm]

/-- What stands in the log of a run was written by one of its events. -/
theorem mem_run_log (s : Server Id Pool H E) (es : List (Event Id F P)) (l : LogLine Id) :
    l ∈ (Run.run (step st logger params enabled) s es).log ↔
      l ∈ s.log ∨ ∃ t e, Run.Occurs (step st logger params enabled) s es t e ∧
        Writes params enabled t e l :=
  Run.run_iff (p := fun s : Server Id Pool H E => l ∈ s.log)
    (q := fun t e => Writes params enabled t e l)
    (fun t e => mem_step_log st t e l) s es

/-- A receipt that any submission of a kind writes. -/
theorem submitted_iff (s : Server Id Pool H E) (es : List (Event Id F P)) {q : Id → Prop} :
    (∃ t e, Run.Occurs (step st logger params enabled) s es t e ∧ ∃ id, e = .submit id ∧ q id) ↔
      ∃ id, .submit id ∈ es ∧ q id := by
  constructor
  · rintro ⟨t, e, ho, id, rfl, hq⟩
    exact ⟨id, ho.mem, hq⟩
  · rintro ⟨id, hid, hq⟩
    obtain ⟨t, ho⟩ : ∃ t, Run.Occurs (step st logger params enabled) s es t (.submit id) :=
      Run.exists_occurs s hid
    exact ⟨t, _, ho, id, rfl, hq⟩

omit [DecidableEq Id] in
theorem infoOnce_nodup {log : Log Id} {line : LogLine Id}
    (h : (log.filter LogLine.isReceipt).Nodup) :
    ((logger.infoOnce log line).filter LogLine.isReceipt).Nodup := by
  by_cases hline : line ∈ log
  · rwa [logger.infoOnce_again hline]
  · rw [logger.infoOnce_first hline, List.filter_append]
    refine List.Nodup.append h (List.Nodup.filter _ (List.nodup_singleton _)) ?_
    intro l hl hl'
    have heq : l = line := List.mem_singleton.mp (List.mem_of_mem_filter hl')
    exact hline (heq ▸ List.mem_of_mem_filter hl)

omit [DecidableEq Id] in
theorem write_nodup {log : Log Id} {line : LogLine Id} (h : (log.filter LogLine.isReceipt).Nodup)
    (hline : line.isReceipt = false) : ((log.write line).filter LogLine.isReceipt).Nodup := by
  rw [Log.write, List.filter_append, List.filter_cons_of_neg (by simp [hline]), List.filter_nil,
    List.append_nil]
  exact h

/-- The receipts stay without repetition. -/
theorem step_nodup (s : Server Id Pool H E) (e : Event Id F P)
    (h : (s.log.filter LogLine.isReceipt).Nodup) :
    ((step st logger params enabled s e).log.filter LogLine.isReceipt).Nodup := by
  have hsuppress (id : Id) (site : Site) :
      ((logNoStore logger id site s.log).filter LogLine.isReceipt).Nodup :=
    write_nodup (infoOnce_nodup h) rfl
  cases e with
  | submit id =>
    cases hv : validated params id with
    | error err => simpa only [step, hv] using h
    | ok p =>
      simp only [step, hv, resolve_id enabled hv]
      cases asked params id with
      | false => exact h
      | true =>
        cases enabled with
        | false => exact write_nodup (infoOnce_nodup h) rfl
        | true => exact write_nodup (infoOnce_nodup h) rfl
  | full id call =>
    cases hs : s.requests id with
    | none => simpa only [step, hs] using h
    | some skip =>
      cases skip with
      | false => simpa only [step, hs, cacheFullBlocks_false] using h
      | true =>
        simp only [step, hs, cacheFullBlocks_true]
        split_ifs
        · exact h
        · exact hsuppress id .full
  | partialTail id call =>
    cases hs : s.requests id with
    | none => simpa only [step, hs] using h
    | some skip =>
      cases skip with
      | false => simpa only [step, hs, cachePartialBlock_false] using h
      | true =>
        simp only [step, hs, cachePartialBlock_true]
        split_ifs
        · exact h
        · exact hsuppress id .partialTail

/-- A server that has a no-store request has logged that it was resolved. -/
theorem step_flagged (s : Server Id Pool H E) (e : Event Id F P)
    (h : ∀ id, s.requests id = some true → LogLine.firstResolved ∈ s.log) (id : Id)
    (hid : (step st logger params enabled s e).requests id = some true) :
    LogLine.firstResolved ∈ (step st logger params enabled s e).log := by
  rw [mem_step_log]
  by_cases hsub : ∃ id' p, e = .submit id' ∧ validated params id' = .ok p
  · obtain ⟨id', p, rfl, hp⟩ := hsub
    rw [step_requests_submit st hp] at hid
    by_cases heq : id = id'
    · subst heq
      rw [Function.update_self, Option.some.injEq, Bool.and_eq_true] at hid
      exact .inr ⟨id, rfl, ⟨⟨p, hp⟩, hid.2⟩, hid.1⟩
    · rw [Function.update_of_ne heq] at hid
      exact .inl (h id hid)
  · rw [step_requests_call st fun id' p he hp => hsub ⟨id', p, he, hp⟩] at hid
    exact .inl (h id hid)

omit [DecidableEq Id] in
theorem Cut.flagged {s : Server Id Pool H E} {e : Event Id F P} {site : Site} (h : Cut s e site) :
    ∃ id, s.requests id = some true := by
  cases e with
  | submit id => exact h.elim
  | full id call => exact ⟨id, h.1⟩
  | partialTail id call => exact ⟨id, h.1⟩

/-- **The receipts prove what they say.** In any run a receipt stands in the log at most once: that
of the resolution iff a client has asked not to be stored and the switch was on, that of the kill
switch iff one has asked and the switch was off, and that of a site iff a store of a no-store
request was cut there. No request that was let through is ever warned of, and no cut is logged
before a resolution. -/
theorem receipts_exact (pool : Pool) (es : List (Event Id F P)) :
    let s : Server Id Pool H E := Run.run (step st logger params enabled) (start pool) es
    (s.log.filter LogLine.isReceipt).Nodup ∧
      (∀ error id, LogLine.storesNormally error id ∉ s.log) ∧
      (LogLine.firstResolved ∈ s.log ↔ ∃ id, Event.submit id ∈ es ∧ Asks params id ∧
        enabled = true) ∧
      (LogLine.ignoring ∈ s.log ↔ ∃ id, Event.submit id ∈ es ∧ Asks params id ∧ enabled = false) ∧
      (∀ site, LogLine.suppressing site ∈ s.log ↔
        ∃ t e, Run.Occurs (step st logger params enabled) (start pool) es t e ∧ Cut t e site) ∧
      ∀ site, LogLine.suppressing site ∈ s.log → LogLine.firstResolved ∈ s.log := by
  intro s
  have hmem (l : LogLine Id) : l ∈ s.log ↔
      ∃ t e, Run.Occurs (step st logger params enabled) (start pool) es t e ∧
          Writes params enabled t e l := by
    rw [mem_run_log]
    simp [start]
  have hnodup : (s.log.filter LogLine.isReceipt).Nodup :=
    Run.run_invariant (s := start pool) (fun s : Server Id Pool H E =>
      (s.log.filter LogLine.isReceipt).Nodup)
      (step_nodup st) List.nodup_nil es
  refine ⟨hnodup, ?_, ?_, ?_, fun site => hmem _, ?_⟩
  · intro error id h
    obtain ⟨t, e, -, hw⟩ := (hmem _).mp h
    exact hw
  · exact (hmem _).trans (submitted_iff st _ es)
  · exact (hmem _).trans (submitted_iff st _ es)
  · intro site h
    obtain ⟨t, e, ⟨es₁, es₂, rfl, rfl⟩, hcut⟩ := (hmem _).mp h
    obtain ⟨id, hid⟩ := Cut.flagged hcut
    have hflagged : LogLine.firstResolved ∈
        (Run.run (step st logger params enabled) (start pool) es₁).log :=
      Run.run_invariant (fun s : Server Id Pool H E => ∀ id, s.requests id = some true →
        LogLine.firstResolved ∈ s.log)
        (step_flagged st) (by simp [start]) es₁ id hid
    obtain ⟨t, e', ho, hw⟩ := ((mem_run_log st _ _ _).mp hflagged).resolve_left (by simp [start])
    exact (hmem _).mpr ⟨t, e', ho.append _, hw⟩

end Runs

end Glm53Serve.KvPool.NoStore
