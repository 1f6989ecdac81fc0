import Glm53Serve.Lib.Machine
import Glm53Serve.Py.Text

/-!
# Fetching a byte range

`ablit/fetch_transplant.py` reads parts of large remote files by HTTP range requests.
`fetch_bytes` fetches one range with up to `RETRIES` attempts; an attempt makes
requests, each from the position reached, until the range is complete, and an exception
ends the attempt.

## The model

A server says what each request gets, by its number and its offset: an exception, or a
status and the results of successive reads, after which the connection closes, the next
read raises, or every further read gives bytes, without end. A step of the machine is one
turn of `while pos <= end`; a turn that meets a body without end does not end, and the
machine stays where it is. `faults` counts the requests that raised, were refused by
status, or failed while being read. Waiting and messages are left out.

## What is proved

* `fetchBytes_ends` — against a server that honours ranges, `fetch_bytes` ends.
* `Inv.step` — what an attempt has read is the range from where the attempt started.
* `lost_never_returns` — an attempt that starts with `got > 0` starts in the middle of
  the range with an empty buffer; neither it nor a later attempt returns.
* `fetchBytes_returns_iff` — so the range is returned exactly if the first request that
  is answered, and those that continue it, deliver it without failing.
-/

namespace Glm53Serve.Ablit

open Py Machine

/-- `RETRIES`. -/
def RETRIES : ℕ := 4

/-- How a response goes on after the reads that are listed. -/
inductive Ending where
  /-- `read` returns `b""`. -/
  | closed
  /-- `read` raises. -/
  | failed
  /-- `read` gives bytes, whenever it is called again. Which, no run comes to use. -/
  | endless
  deriving DecidableEq

/-- What `http(url, headers, pos, end)` gives. -/
inductive Response where
  /-- `urlopen` raises. -/
  | raised
  /-- A response, with what successive `read(CHUNK)` return. -/
  | reply (status : ℕ) (reads : List Bytes) (ending : Ending)

/-- A server: what the request with this number, from this offset, gets. -/
abbrev Server := ℕ → ℕ → Response

/-- The variables of `fetch_bytes`, and counts of requests and of failed requests. -/
structure FetchState where
  attempt : ℕ
  out : Bytes
  pos : ℕ
  got : ℕ
  requests : ℕ
  faults : ℕ
  deriving DecidableEq

/-- How `fetch_bytes` ends: with bytes, or with `SystemExit`. -/
structure Fetched where
  result : Option Bytes
  faults : ℕ
  deriving DecidableEq

/-- The loop over `rsp.read(CHUNK)`. -/
def readBody (s : FetchState) (ending : Ending) : List Bytes → FetchState × Ending
  | [] => (s, ending)
  | chunk :: reads =>
    if chunk = [] then (s, .closed)
    else
      readBody { s with out := s.out ++ chunk, pos := s.pos + chunk.length,
                        got := (s.out ++ chunk).length } ending reads

/-- The `except` branch: the next attempt, from where this one got, or `SystemExit`. -/
def retry (start : ℕ) (s : FetchState) : FetchState ⊕ Fetched :=
  if s.attempt + 1 < RETRIES then
    .inl { s with attempt := s.attempt + 1, out := [], pos := start + s.got }
  else .inr ⟨none, s.faults⟩

/-- One turn of `while pos <= end`, and what follows the loop. -/
def fetchStep (server : Server) (start stop : ℕ) (s : FetchState) : FetchState ⊕ Fetched :=
  if s.pos ≤ stop then
    match server s.requests s.pos with
    | .raised => retry start { s with requests := s.requests + 1, faults := s.faults + 1 }
    | .reply status reads ending =>
      if status ≠ 200 ∧ status ≠ 206 then
        retry start { s with requests := s.requests + 1, faults := s.faults + 1 }
      else
        match readBody { s with requests := s.requests + 1 } ending reads with
        | (s', .failed) => retry start { s' with faults := s'.faults + 1 }
        | (s', .closed) =>
          if s'.out.length = stop + 1 - start then .inr ⟨some s'.out, s'.faults⟩ else .inl s'
        -- `while True` over the reads is never left
        | (_, .endless) => .inl s
  else retry start s

/-- Before the first attempt. -/
def fetchInit (start : ℕ) : FetchState := ⟨0, [], start, 0, 0, 0⟩

/-- `fetch_bytes(url, start, end, headers, what)` ends so. -/
def FetchBytes (server : Server) (start stop : ℕ) : Fetched → Prop :=
  Ends (fetchStep server start stop) (fetchInit start)

/-- The bytes `start` to `stop` of an object, both included. -/
def span (obj : Bytes) (start stop : ℕ) : Bytes := (obj.drop start).take (stop + 1 - start)

/-- The server honours ranges: what answers a request is a non-empty prefix of what it
asks for, and ends. -/
def Honours (server : Server) (obj : Bytes) (start stop : ℕ) : Prop :=
  ∀ i pos status reads ending, start ≤ pos → pos ≤ stop →
    server i pos = .reply status reads ending →
      (status = 200 ∨ status = 206) ∧ ending ≠ .endless ∧ reads ≠ [] ∧ (∀ r ∈ reads, r ≠ []) ∧
        reads.flatten <+: span obj pos stop

/-! ### One turn -/

/-- Reading chunks that are not empty. -/
theorem readBody_eq (ending : Ending) (reads : List Bytes) : ∀ s : FetchState,
    (∀ r ∈ reads, r ≠ []) → (readBody s ending reads).2 = ending ∧
      (readBody s ending reads).1 =
        { s with out := s.out ++ reads.flatten, pos := s.pos + reads.flatten.length,
                 got := if reads = [] then s.got else (s.out ++ reads.flatten).length } := by
  induction reads with
  | nil => intro s _; exact ⟨rfl, by simp [readBody]⟩
  | cons chunk reads ih =>
    intro s h
    have hchunk : chunk ≠ [] := h chunk (List.mem_cons_self ..)
    rw [readBody, if_neg hchunk]
    obtain ⟨h1, h2⟩ := ih _ fun r hr => h r (List.mem_cons_of_mem _ hr)
    refine ⟨h1, ?_⟩
    rw [h2]
    cases reads <;> simp [Nat.add_assoc]

/-- What an attempt that started `g` bytes into the range has read so far. -/
structure Inv (obj : Bytes) (start stop g : ℕ) (s : FetchState) : Prop where
  pos_eq : s.pos = start + g + s.out.length
  pos_le : s.pos ≤ stop + 1
  out_eq : s.out = (obj.drop (start + g)).take s.out.length
  got_eq : s.got = if s.out = [] then g else s.out.length

variable {server : Server} {obj : Bytes} {start stop : ℕ}

theorem inv_init (hle : start ≤ stop) : Inv obj start stop 0 (fetchInit start) :=
  ⟨rfl, by simp only [fetchInit]; omega, by simp [fetchInit], rfl⟩

/-- Counting requests changes nothing that is read. -/
theorem Inv.count {g : ℕ} {s : FetchState} (h : Inv obj start stop g s) (n m : ℕ) :
    Inv obj start stop g { s with requests := n, faults := m } := ⟨h.1, h.2, h.3, h.4⟩

/-- Reading a prefix of what was asked for. -/
theorem Inv.read {g : ℕ} {s : FetchState} (h : Inv obj start stop g s) {bs : Bytes}
    (hbs : bs <+: span obj s.pos stop) (hne : bs ≠ []) (n m : ℕ) :
    Inv obj start stop g ⟨s.attempt, s.out ++ bs, s.pos + bs.length,
      (s.out ++ bs).length, n, m⟩ := by
  have hlen : bs.length ≤ stop + 1 - s.pos := by
    have := hbs.length_le
    rw [span, List.length_take] at this
    omega
  have hpos := h.pos_le
  refine ⟨?_, by simp only; omega, ?_, by simp [hne]⟩
  · simp only [List.length_append]
    rw [h.pos_eq, Nat.add_assoc]
  · have htake : bs = (obj.drop s.pos).take bs.length :=
      List.prefix_iff_eq_take.mp (hbs.trans (List.take_prefix _ _))
    simp only [List.length_append]
    rw [List.take_add, ← h.out_eq, List.drop_drop, ← h.pos_eq, ← htake]

/-- The next attempt starts where this one got. -/
theorem Inv.retry {g : ℕ} {s : FetchState} (h : Inv obj start stop g s) :
    Inv obj start stop s.got
      { s with attempt := s.attempt + 1, out := [], pos := start + s.got } := by
  have hpos := h.pos_eq
  have hle := h.pos_le
  have hgot := h.got_eq
  refine ⟨rfl, ?_, by simp, by simp⟩
  simp only
  split_ifs at hgot <;> omega

/-- An attempt with an empty buffer, started at the start of the range, is still there. -/
theorem Inv.pos_of_out {s : FetchState} (h : Inv obj start stop 0 s) (hout : s.out = []) :
    s.pos = start := by
  have hpos := h.pos_eq
  rwa [hout] at hpos

theorem retry_eq_inl {s s' : FetchState} (h : Ablit.retry start s = .inl s') :
    s.attempt + 1 < RETRIES ∧
      s' = { s with attempt := s.attempt + 1, out := [], pos := start + s.got } := by
  rw [Ablit.retry] at h
  split_ifs at h with hretry
  exact ⟨hretry, (Sum.inl.inj h).symm⟩

/-- The last attempt does not return. -/
theorem retry_eq_inr {s : FetchState} {r : Fetched} (h : Ablit.retry start s = .inr r) :
    r.result = none := by
  rw [Ablit.retry] at h
  split_ifs at h
  rw [← Sum.inr.inj h]

/-- A complete buffer is the range, and the attempt started at its start. -/
theorem Inv.complete {g : ℕ} {s : FetchState} (h : Inv obj start stop g s) (hle : start ≤ stop)
    (hlen : s.out.length = stop + 1 - start) : g = 0 ∧ s.out = span obj start stop := by
  have hpos := h.pos_eq
  have hposle := h.pos_le
  obtain rfl : g = 0 := by omega
  refine ⟨rfl, ?_⟩
  have hout := h.out_eq
  rwa [hlen, Nat.add_zero] at hout

/-- What a server that honours ranges answers is not empty, and is what was asked for. -/
theorem Honours.reply (hh : Honours server obj start stop) {i pos status : ℕ} {reads : List Bytes}
    {ending : Ending} (hstart : start ≤ pos) (hpos : pos ≤ stop)
    (hr : server i pos = .reply status reads ending) :
    ¬ (status ≠ 200 ∧ status ≠ 206) ∧ ending ≠ .endless ∧ reads ≠ [] ∧ (∀ r ∈ reads, r ≠ []) ∧
      reads.flatten ≠ [] ∧ reads.flatten <+: span obj pos stop := by
  obtain ⟨hst, hend, hne, hreads, hpre⟩ := hh _ _ _ _ _ hstart hpos hr
  refine ⟨by tauto, hend, hne, hreads, ?_, hpre⟩
  obtain ⟨r, rs, rfl⟩ := List.exists_cons_of_ne_nil hne
  simp [hreads r (List.mem_cons_self ..)]

/-- A turn against a request that closes. -/
theorem fetchStep_closed (hh : Honours server obj start stop) {g : ℕ} {s : FetchState}
    (h : Inv obj start stop g s) (hpos : s.pos ≤ stop) {status : ℕ} {reads : List Bytes}
    (hr : server s.requests s.pos = .reply status reads .closed) :
    ∃ s' : FetchState, Inv obj start stop g s' ∧ s'.out ≠ [] ∧ s.pos < s'.pos ∧
      s'.pos = s.pos + reads.flatten.length ∧ s'.requests = s.requests + 1 ∧
      s'.attempt = s.attempt ∧
      fetchStep server start stop s =
        if s'.out.length = stop + 1 - start then .inr ⟨some s'.out, s'.faults⟩ else .inl s' := by
  obtain ⟨hst, -, hne, hreads, hflat, hpre⟩ := hh.reply (by have := h.pos_eq; omega) hpos hr
  obtain ⟨hend, hbody⟩ := readBody_eq .closed reads { s with requests := s.requests + 1 } hreads
  have hlen : 0 < reads.flatten.length := List.length_pos_iff.mpr hflat
  refine ⟨_, h.read hpre hflat (s.requests + 1) s.faults, by simp [hflat], by simp only; omega, rfl,
    rfl, rfl, ?_⟩
  rw [if_neg hne] at hbody
  simp only [fetchStep, if_pos hpos, hr, if_neg hst]
  rw [show readBody { s with requests := s.requests + 1 } .closed reads = (_, .closed) from
    Prod.ext hbody hend]

/-- A turn against a request that fails after bytes. -/
theorem fetchStep_failed (hh : Honours server obj start stop) {g : ℕ} {s : FetchState}
    (h : Inv obj start stop g s) (hpos : s.pos ≤ stop) {status : ℕ} {reads : List Bytes}
    (hr : server s.requests s.pos = .reply status reads .failed) :
    ∃ s' : FetchState, Inv obj start stop g s' ∧ s'.out ≠ [] ∧ s'.attempt = s.attempt ∧
      fetchStep server start stop s = retry start s' := by
  obtain ⟨hst, -, hne, hreads, hflat, hpre⟩ := hh.reply (by have := h.pos_eq; omega) hpos hr
  obtain ⟨hend, hbody⟩ := readBody_eq .failed reads { s with requests := s.requests + 1 } hreads
  refine ⟨_, h.read hpre hflat (s.requests + 1) (s.faults + 1), by simp [hflat], rfl, ?_⟩
  rw [if_neg hne] at hbody
  simp only [fetchStep, if_pos hpos, hr, if_neg hst]
  rw [show readBody { s with requests := s.requests + 1 } .failed reads = (_, .failed) from
    Prod.ext hbody hend]

/-- A turn against a request that raises. -/
theorem fetchStep_raised {s : FetchState} (hpos : s.pos ≤ stop)
    (hr : server s.requests s.pos = .raised) : fetchStep server start stop s =
      retry start { s with requests := s.requests + 1, faults := s.faults + 1 } := by
  simp only [fetchStep, if_pos hpos, hr]

/-- **What one turn does**: it reads on in the same attempt, or ends the attempt, or
returns the range, in which case the attempt started at its start. -/
theorem Inv.step {g : ℕ} {s : FetchState} (hh : Honours server obj start stop)
    (hle : start ≤ stop) (h : Inv obj start stop g s) :
    (∃ s', fetchStep server start stop s = .inl s' ∧ Inv obj start stop g s' ∧ s.pos < s'.pos ∧
        s'.attempt = s.attempt) ∨
      (∃ s', fetchStep server start stop s = Ablit.retry start s' ∧ Inv obj start stop g s' ∧
        s'.attempt = s.attempt) ∨
      (∃ f, fetchStep server start stop s = .inr ⟨some (span obj start stop), f⟩ ∧ g = 0) := by
  by_cases hpos : s.pos ≤ stop
  · cases hr : server s.requests s.pos with
    | raised => exact Or.inr (Or.inl ⟨_, fetchStep_raised hpos hr, h.count _ _, rfl⟩)
    | reply status reads ending =>
      cases ending with
      | endless => exact absurd rfl (hh.reply (by have := h.pos_eq; omega) hpos hr).2.1
      | failed =>
        obtain ⟨s', hinv, -, hatt, hstep⟩ := fetchStep_failed hh h hpos hr
        exact Or.inr (Or.inl ⟨s', hstep, hinv, hatt⟩)
      | closed =>
        obtain ⟨s', hinv, -, hlt, -, -, hatt, hstep⟩ := fetchStep_closed hh h hpos hr
        split_ifs at hstep with hlen
        · obtain ⟨hg, hout⟩ := hinv.complete hle hlen
          exact Or.inr (Or.inr ⟨s'.faults, by rw [hstep, hout], hg⟩)
        · exact Or.inl ⟨s', hstep, hinv, hlt, hatt⟩
  · exact Or.inr (Or.inl ⟨s, by simp only [fetchStep, if_neg hpos], h, rfl⟩)

/-! ### Attempts -/

/-- An attempt that starts in the middle of the range, and those after it, do not
return. -/
theorem lost_never_returns (hh : Honours server obj start stop) (hle : start ≤ stop)
    {g : ℕ} {s : FetchState} (hg : 0 < g) (h : Inv obj start stop g s) {r : Fetched}
    (hr : Ends (fetchStep server start stop) s r) : r.result = none := by
  refine hr.of_inv (fun s => ∃ g, 0 < g ∧ Inv obj start stop g s) (fun r => r.result = none) ?_ ?_
    ⟨g, hg, h⟩
  · rintro s s' ⟨g, hg, h⟩ hs
    rcases h.step hh hle with ⟨s₁, h₁, hinv, -⟩ | ⟨s₁, h₁, hinv, -⟩ | ⟨f, h₁, -⟩
    · rw [h₁] at hs
      cases hs
      exact ⟨g, hg, hinv⟩
    · rw [h₁] at hs
      obtain ⟨-, rfl⟩ := retry_eq_inl hs
      refine ⟨s₁.got, ?_, hinv.retry⟩
      have hgot := hinv.got_eq
      split_ifs at hgot with hout
      · omega
      · have := List.length_pos_iff.mpr hout
        omega
    · rw [h₁] at hs
      cases hs
  · rintro s r ⟨g, hg, h⟩ hs
    rcases h.step hh hle with ⟨s₁, h₁, -⟩ | ⟨s₁, h₁, -⟩ | ⟨f, h₁, rfl⟩
    · rw [h₁] at hs
      cases hs
    · rw [h₁] at hs
      exact retry_eq_inr hs
    · exact absurd hg (lt_irrefl 0)

/-- What is left to do: attempts, and in this attempt bytes. -/
def workLeft (start stop : ℕ) (s : FetchState) : ℕ :=
  (RETRIES - s.attempt) * (stop + 2 - start) + (stop + 1 - s.pos)

/-- `fetch_bytes` ends against a server that honours ranges, from any state of an attempt. -/
theorem exists_fetched (hh : Honours server obj start stop) (hle : start ≤ stop) {s : FetchState}
    (hs : ∃ g, Inv obj start stop g s) : ∃ r, Ends (fetchStep server start stop) s r := by
  refine exists_ends (fun s => ∃ g, Inv obj start stop g s) (workLeft start stop) ?_ hs
  rintro s s' ⟨g, h⟩ hs
  rcases h.step hh hle with ⟨s₁, h₁, hinv, hpos, hatt⟩ | ⟨s₁, h₁, hinv, hatt⟩ | ⟨f, h₁, -⟩
  · rw [h₁] at hs
    cases hs
    refine ⟨⟨g, hinv⟩, ?_⟩
    have := hinv.pos_le
    rw [workLeft, workLeft, hatt]
    omega
  · rw [h₁] at hs
    obtain ⟨hretry, rfl⟩ := retry_eq_inl hs
    refine ⟨⟨s₁.got, hinv.retry⟩, ?_⟩
    rw [hatt] at hretry
    have hsplit : RETRIES - s.attempt = (RETRIES - (s.attempt + 1)) + 1 := by omega
    simp only [workLeft, hatt]
    rw [hsplit, Nat.add_mul, Nat.one_mul]
    omega
  · rw [h₁] at hs
    cases hs

/-- What is returned is the range. -/
theorem returned_eq_span (hh : Honours server obj start stop) (hle : start ≤ stop) {s : FetchState}
    (hs : ∃ g, Inv obj start stop g s) {r : Fetched} (hr : Ends (fetchStep server start stop) s r) :
    ∀ b ∈ r.result, b = span obj start stop := by
  refine hr.of_inv (fun s => ∃ g, Inv obj start stop g s)
    (fun r => ∀ b ∈ r.result, b = span obj start stop) ?_ ?_ hs
  · rintro s s' ⟨g, h⟩ hs
    rcases h.step hh hle with ⟨s₁, h₁, hinv, -⟩ | ⟨s₁, h₁, hinv, -⟩ | ⟨f, h₁, -⟩
    · rw [h₁] at hs
      cases hs
      exact ⟨g, hinv⟩
    · rw [h₁] at hs
      obtain ⟨-, rfl⟩ := retry_eq_inl hs
      exact ⟨s₁.got, hinv.retry⟩
    · rw [h₁] at hs
      cases hs
  · rintro s r ⟨g, h⟩ hs b hb
    rcases h.step hh hle with ⟨s₁, h₁, -⟩ | ⟨s₁, h₁, -⟩ | ⟨f, h₁, -⟩
    · rw [h₁] at hs
      cases hs
    · rw [h₁] at hs
      rw [retry_eq_inr hs] at hb
      cases hb
    · rw [h₁] at hs
      cases hs
      exact (Option.some.inj hb).symm

/-! ### When the range is returned -/

/-- The requests from number `i` on deliver the bytes `pos` to `stop`, each from where
the one before it closed, and none fails. -/
inductive Delivers (server : Server) (stop : ℕ) : ℕ → ℕ → Prop where
  /-- One request delivers the rest. -/
  | last {i pos status : ℕ} {reads : List Bytes} : server i pos = .reply status reads .closed →
      pos + reads.flatten.length = stop + 1 → Delivers server stop i pos
  /-- One request delivers some of it, and the next ones the rest. -/
  | more {i pos status : ℕ} {reads : List Bytes} : server i pos = .reply status reads .closed →
      pos + reads.flatten.length ≤ stop →
      Delivers server stop (i + 1) (pos + reads.flatten.length) →
      Delivers server stop i pos

/-- Fewer than `n` requests from number `i` on raise before a byte arrives, and those
that follow deliver the range. -/
def DeliversAfter (server : Server) (start stop n i : ℕ) : Prop :=
  ∃ k < n, (∀ j < k, server (i + j) start = .raised) ∧ Delivers server stop (i + k) start

theorem Delivers.after {i n : ℕ} (h : Delivers server stop i start) (hn : 0 < n) :
    DeliversAfter server start stop n i :=
  ⟨0, hn, fun _ hj => absurd hj (Nat.not_lt_zero _), h⟩

/-- One more request that raises. -/
theorem DeliversAfter.raised {i n : ℕ} (hr : server i start = .raised)
    (h : DeliversAfter server start stop n (i + 1)) :
    DeliversAfter server start stop (n + 1) i := by
  obtain ⟨k, hk, hraised, hd⟩ := h
  refine ⟨k + 1, by omega, fun j hj => ?_, by rwa [show i + (k + 1) = i + 1 + k by omega]⟩
  cases j with
  | zero => exact hr
  | succ j =>
    rw [show i + (j + 1) = i + 1 + j by omega]
    exact hraised j (by omega)

/-- After bytes have been read, an attempt that ends does not lead to a return. -/
theorem retry_never_returns (hh : Honours server obj start stop) (hle : start ≤ stop) {g : ℕ}
    {s s' : FetchState} (h : Inv obj start stop g s) (hout : s.out ≠ [])
    (hs : retry start s = .inl s') {r : Fetched} (hsome : r.result ≠ none) :
    ¬ Ends (fetchStep server start stop) s' r := by
  intro he
  obtain ⟨-, rfl⟩ := retry_eq_inl hs
  have hgot : 0 < s.got := by
    rw [h.got_eq, if_neg hout]
    exact List.length_pos_iff.mpr hout
  exact hsome (lost_never_returns hh hle hgot h.retry he)

/-- Requests that deliver the rest make the attempt return. -/
theorem returns_of_delivers (hh : Honours server obj start stop) (hle : start ≤ stop) {i pos : ℕ}
    (hd : Delivers server stop i pos) : ∀ s : FetchState, Inv obj start stop 0 s → s.requests = i →
      s.pos = pos → s.pos ≤ stop → ∃ f, Ends (fetchStep server start stop) s
        ⟨some (span obj start stop), f⟩ := by
  induction hd with
  | last hr hlen =>
    rintro s h rfl rfl hpos
    obtain ⟨s', hinv, -, -, hpos', -, -, hstep⟩ := fetchStep_closed hh h hpos hr
    have hfull : s'.out.length = stop + 1 - start := by have := hinv.pos_eq; omega
    rw [if_pos hfull, (hinv.complete hle hfull).2] at hstep
    exact ⟨s'.faults, .done hstep⟩
  | more hr hlen _ ih =>
    rintro s h rfl rfl hpos
    obtain ⟨s', hinv, -, -, hpos', hreq, -, hstep⟩ := fetchStep_closed hh h hpos hr
    have hpart : s'.out.length ≠ stop + 1 - start := by have := hinv.pos_eq; omega
    rw [if_neg hpart] at hstep
    obtain ⟨f, hf⟩ := ih s' hinv hreq hpos' (by omega)
    exact ⟨f, .next hstep hf⟩

/-- Requests that raise before a byte arrives only use up attempts. -/
theorem returns_of_deliversAfter (hh : Honours server obj start stop) (hle : start ≤ stop) (n : ℕ) :
    ∀ s : FetchState, Inv obj start stop 0 s → s.out = [] → s.attempt + n = RETRIES →
      DeliversAfter server start stop n s.requests →
      ∃ f, Ends (fetchStep server start stop) s ⟨some (span obj start stop), f⟩ := by
  induction n with
  | zero => rintro s - - - ⟨k, hk, -⟩; exact absurd hk (Nat.not_lt_zero k)
  | succ n ih =>
    rintro s h hout hn ⟨k, hk, hraised, hd⟩
    have hstart := h.pos_of_out hout
    have hpos : s.pos ≤ stop := by omega
    cases k with
    | zero => exact returns_of_delivers hh hle hd s h rfl hstart hpos
    | succ k =>
      have hr : server s.requests s.pos = .raised := by
        rw [hstart]
        exact hraised 0 (Nat.succ_pos k)
      have hstep : fetchStep server start stop s = _ := fetchStep_raised hpos hr
      rw [retry, if_pos (by simp only; omega)] at hstep
      have hgot : s.got = 0 := by rw [h.got_eq, if_pos hout]
      have hnext := (h.count (s.requests + 1) (s.faults + 1)).retry
      simp only [hgot] at hnext hstep
      obtain ⟨f, hf⟩ := ih _ hnext rfl (by simp only; omega)
        ⟨k, by omega, fun j hj => by rw [← hraised (j + 1) (by omega)]; congr 1; simp only; omega,
          by rwa [show s.requests + 1 + k = s.requests + (k + 1) by omega]⟩
      exact ⟨f, .next hstep hf⟩

/-- Only so does an attempt that started at the start of the range return. -/
theorem delivers_of_returns (hh : Honours server obj start stop) (hle : start ≤ stop)
    {s : FetchState} {r : Fetched} (hr : Ends (fetchStep server start stop) s r)
    (hsome : r.result ≠ none) : Inv obj start stop 0 s → s.pos ≤ stop →
      (s.out ≠ [] → Delivers server stop s.requests s.pos) ∧
        (s.out = [] → s.attempt < RETRIES →
          DeliversAfter server start stop (RETRIES - s.attempt) s.requests) := by
  induction hr with
  | @done s r hs =>
    intro h hpos
    suffices hd : Delivers server stop s.requests s.pos by
      refine ⟨fun _ => hd, fun hout hatt => ?_⟩
      rw [h.pos_of_out hout] at hd
      exact hd.after (by omega)
    cases hreply : server s.requests s.pos with
    | raised =>
      rw [fetchStep_raised hpos hreply] at hs
      exact absurd (retry_eq_inr hs) hsome
    | reply status reads ending =>
      cases ending with
      | endless => exact absurd rfl (hh.reply (by have := h.pos_eq; omega) hpos hreply).2.1
      | failed =>
        obtain ⟨s', -, -, -, hstep⟩ := fetchStep_failed hh h hpos hreply
        rw [hstep] at hs
        exact absurd (retry_eq_inr hs) hsome
      | closed =>
        obtain ⟨s', hinv, -, -, hpos', -, -, hstep⟩ := fetchStep_closed hh h hpos hreply
        rw [hstep] at hs
        split_ifs at hs with hlen
        exact .last hreply (by have := hinv.pos_eq; omega)
  | @next s s₁ r hs hends ih =>
    intro h hpos
    cases hreply : server s.requests s.pos with
    | raised =>
      rw [fetchStep_raised hpos hreply] at hs
      have hcount := h.count (s.requests + 1) (s.faults + 1)
      refine ⟨fun hout => ?_, fun hout hatt => ?_⟩
      · exact absurd hends (retry_never_returns hh hle hcount hout hs hsome)
      · have hgot : s.got = 0 := by rw [h.got_eq, if_pos hout]
        obtain ⟨hretry, rfl⟩ := retry_eq_inl hs
        have hnext := hcount.retry
        simp only [hgot] at hnext
        obtain ⟨-, hafter⟩ :=
          ih hsome (by simpa only [hgot] using hnext) (by simp only [hgot]; omega)
        rw [h.pos_of_out hout] at hreply
        have hmore := (hafter rfl hretry).raised hreply
        rwa [show RETRIES - (s.attempt + 1) + 1 = RETRIES - s.attempt by omega] at hmore
    | reply status reads ending =>
      cases ending with
      | endless => exact absurd rfl (hh.reply (by have := h.pos_eq; omega) hpos hreply).2.1
      | failed =>
        obtain ⟨s', hinv, hne, -, hstep⟩ := fetchStep_failed hh h hpos hreply
        rw [hstep] at hs
        exact absurd hends (retry_never_returns hh hle hinv hne hs hsome)
      | closed =>
        obtain ⟨s', hinv, hne, -, hpos', hreq, -, hstep⟩ := fetchStep_closed hh h hpos hreply
        rw [hstep] at hs
        split_ifs at hs with hlen
        cases hs
        have hinvpos := hinv.pos_eq
        have hinvle := hinv.pos_le
        have hd := (ih hsome hinv (by omega)).1 hne
        rw [hreq, hpos'] at hd
        have hmore := Delivers.more hreply (by omega) hd
        refine ⟨fun _ => hmore, fun hout hatt => ?_⟩
        rw [h.pos_of_out hout] at hmore
        exact hmore.after (by omega)

/-- **When a range is fetched**: against a server that honours ranges, `fetch_bytes`
ends, and returns nothing but the bytes `start` to `stop`; it returns them exactly if
fewer than `RETRIES` requests raise before a byte arrives, and the next one, and those
that continue it, deliver the range without failing. -/
theorem fetchBytes_returns_iff (hh : Honours server obj start stop) (hle : start ≤ stop) :
    ∃ r, FetchBytes server start stop r ∧ (∀ b ∈ r.result, b = span obj start stop) ∧
      (r.result = some (span obj start stop) ↔ DeliversAfter server start stop RETRIES 0) := by
  obtain ⟨r, hr⟩ := exists_fetched hh hle ⟨0, inv_init hle⟩
  refine ⟨r, hr, returned_eq_span hh hle ⟨0, inv_init hle⟩ hr, fun hsome => ?_, fun hd => ?_⟩
  · have hne : r.result ≠ none := by rw [hsome]; exact Option.some_ne_none _
    exact (delivers_of_returns hh hle hr hne (inv_init hle) hle).2 rfl (Nat.succ_pos 3)
  · obtain ⟨f, hf⟩ := returns_of_deliversAfter hh hle RETRIES (fetchInit start)
      (inv_init hle) rfl rfl hd
    rw [hf.unique hr]

/-- A server that answers every request with one byte, and then ends as `ending` says. -/
def byteServer (obj : Bytes) (ending : ℕ → Ending) : Server :=
  fun i pos => .reply 206 [(obj.drop pos).take 1] (ending i)

theorem byteServer_honours {obj : Bytes} {stop : ℕ} (h : stop < obj.length) (ending : ℕ → Ending)
    (hending : ∀ i, ending i ≠ .endless) (start : ℕ) :
    Honours (byteServer obj ending) obj start stop := by
  intro i pos status reads e _ hpos hr
  simp only [byteServer, Response.reply.injEq] at hr
  obtain ⟨rfl, rfl, rfl⟩ := hr
  refine ⟨Or.inr rfl, hending i, List.cons_ne_nil _ _, fun r hr => ?_, ?_⟩
  · rw [List.mem_singleton.mp hr]
    refine List.ne_nil_of_length_pos ?_
    rw [List.length_take, List.length_drop]
    omega
  · rw [List.flatten_singleton, span]
    exact List.take_prefix_take_left (by omega)

/-- Two bytes, a request each. -/
theorem fetchBytes_returns_iff_two :
    ∃ r, FetchBytes (byteServer [1, 2] fun _ => .closed) 0 1 r ∧
      (∀ b ∈ r.result, b = span [1, 2] 0 1) ∧
      (r.result = some (span [1, 2] 0 1) ↔
        DeliversAfter (byteServer [1, 2] fun _ => .closed) 0 1 RETRIES 0) :=
  fetchBytes_returns_iff (byteServer_honours (by decide) _ (fun _ => by decide) 0) (by decide)

/-- Two bytes, of which the first arrives before the connection fails, once: every later
attempt asks for the second byte alone, finds the range short, and `fetch_bytes` exits. -/
theorem fetchBytes_fails_after_one_fault :
    Honours (byteServer [1, 2] fun i => if i = 0 then .failed else .closed) [1, 2] 0 1 ∧
      FetchBytes (byteServer [1, 2] fun i => if i = 0 then .failed else .closed) 0 1 ⟨none, 1⟩ ∧
      1 < RETRIES :=
  ⟨byteServer_honours (by decide) _ (fun i => by split <;> decide) 0,
    ends_of_runFor (n := 7) (by decide), by decide⟩

end Glm53Serve.Ablit
