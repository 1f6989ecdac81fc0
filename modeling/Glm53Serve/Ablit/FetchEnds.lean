import Glm53Serve.Ablit.FetchBytes
import Mathlib.Data.Nat.Find

/-!
# When a fetch ends

`fetch_bytes` counts an attempt only when something raises. A response that carries no
bytes raises nothing: the loop asks again from the same position, at once. And a body that
does not end keeps the attempt in its inner loop.

## The model

The machine of `FetchBytes`, against any server: bytes past the range, empty bodies, bodies
without end, any status. What a response does to an attempt is its `course`; from the
courses alone follows with which request, and after how many bytes, each attempt begins
(`Attempt`).

## What is proved

* `fetchStep_breaks`, `fetchStep_closes`, `fetchStep_endless` — what a turn does, by the
  course of the response.
* `fetchStep_cases` — a turn that does not hang ends the fetch, or leaves less work.
* `terminates_iff_reached` — the fetch ends exactly if no state is reached that hangs.
* `asks_of_reaches`, `reaches_of_attempt` — the requests made are those of the attempts.
* `fetchBytes_ends_iff` — the fetch ends exactly if the replies let no attempt hang.
-/

namespace Glm53Serve.Ablit

open Py Machine

/-! ### The replies -/

/-- What a response does to the attempt that asked for it. -/
inductive Course where
  /-- It ends the attempt, after so many bytes. -/
  | breaks (bytes : ℕ)
  /-- It closes, after so many bytes. -/
  | closes (bytes : ℕ)
  /-- It does not end. -/
  | endless
  deriving DecidableEq

/-- The bytes that reads give up to the first that gives none. -/
def bodyLength : List Bytes → ℕ
  | [] => 0
  | chunk :: reads => if chunk = [] then 0 else chunk.length + bodyLength reads

/-- A read that gives nothing closes the body. -/
def bodyEnding (ending : Ending) (reads : List Bytes) : Ending :=
  if [] ∈ reads then .closed else ending

/-- The course of a response. -/
def Response.course : Response → Course
  | .raised => .breaks 0
  | .reply status reads ending =>
    if status ≠ 200 ∧ status ≠ 206 then .breaks 0
    else
      match bodyEnding ending reads with
      | .closed => .closes (bodyLength reads)
      | .failed => .breaks (bodyLength reads)
      | .endless => .endless

/-- `got` when an attempt has read `b` bytes. -/
def kept (got b : ℕ) : ℕ := if b = 0 then got else b

/-- The requests from number `i` on, the first from offset `pos` and each one from where the
one before closed, are answered within the range; the next one has number `j`, after `b`
bytes. -/
inductive Feeds (server : Server) (stop i pos : ℕ) : ℕ → ℕ → Prop where
  | refl : Feeds server stop i pos i 0
  | next {j b n : ℕ} : Feeds server stop i pos j b → pos + b ≤ stop →
      (server j (pos + b)).course = .closes n → Feeds server stop i pos (j + 1) (b + n)

/-- How an attempt that begins with request `i`, after `got` bytes, fails: the next one
begins with request `j`, after so many bytes. -/
inductive Fails (server : Server) (start stop i got : ℕ) : ℕ → ℕ → Prop where
  /-- A response breaks off. -/
  | broken {j b n : ℕ} : Feeds server stop i (start + got) j b → start + got + b ≤ stop →
      (server j (start + got + b)).course = .breaks n →
      Fails server start stop i got (j + 1) (kept got (b + n))
  /-- The end of the range is passed, with a buffer of another length than the range. -/
  | short {j b : ℕ} : Feeds server stop i (start + got) j b → stop < start + got + b →
      (j = i ∨ b ≠ stop + 1 - start) → Fails server start stop i got j (kept got b)

/-- Attempt number `n` begins with request `i`, after `got` bytes. -/
inductive Attempt (server : Server) (start stop : ℕ) : ℕ → ℕ → ℕ → Prop where
  | first : Attempt server start stop 0 0 0
  | next {n i got j got' : ℕ} : Attempt server start stop n i got →
      Fails server start stop i got j got' → n + 1 < RETRIES →
      Attempt server start stop (n + 1) j got'

/-- The replies to an attempt that begins with request `i` from offset `pos` come to an
offset within the range where one has no end, or where from then on all are accepted and
empty. -/
def Hangs (server : Server) (stop i pos : ℕ) : Prop :=
  ∃ j b, Feeds server stop i pos j b ∧ pos + b ≤ stop ∧
    ((server j (pos + b)).course = .endless ∨
      ∀ k ≥ j, (server k (pos + b)).course = .closes 0)

variable {server : Server} {start stop : ℕ}

theorem Feeds.le {i pos j b : ℕ} (h : Feeds server stop i pos j b) : i ≤ j := by
  induction h with
  | refl => exact le_rfl
  | next _ _ _ ih => exact Nat.le_succ_of_le ih

/-! ### One turn -/

/-- `s'` is `s` after reading `n` bytes. -/
structure Read (s s' : FetchState) (n : ℕ) : Prop where
  attempt_eq : s'.attempt = s.attempt
  length_eq : s'.out.length = s.out.length + n
  pos_eq : s'.pos = s.pos + n
  got_eq : s'.got = if n = 0 then s.got else s.out.length + n
  requests_eq : s'.requests = s.requests

/-- Reading a body. -/
theorem readBody_read (ending : Ending) (reads : List Bytes) : ∀ s : FetchState,
    (readBody s ending reads).2 = bodyEnding ending reads ∧
      Read s (readBody s ending reads).1 (bodyLength reads) := by
  induction reads with
  | nil => exact fun s => ⟨rfl, rfl, rfl, rfl, rfl, rfl⟩
  | cons chunk reads ih =>
    intro s
    by_cases hchunk : chunk = []
    · rw [readBody, if_pos hchunk, bodyLength, if_pos hchunk, hchunk]
      exact ⟨(if_pos (List.mem_cons_self ..)).symm, rfl, rfl, rfl, rfl, rfl⟩
    · rw [readBody, if_neg hchunk, bodyLength, if_neg hchunk]
      obtain ⟨hend, hread⟩ := ih
        { s with out := s.out ++ chunk, pos := s.pos + chunk.length,
                 got := (s.out ++ chunk).length }
      refine ⟨?_, ?_⟩
      · rw [hend]
        simp only [bodyEnding, List.mem_cons, Ne.symm hchunk, false_or]
      · have hpos := List.length_pos_iff.mpr hchunk
        have hgot := hread.got_eq
        refine ⟨hread.attempt_eq, ?_, ?_, ?_, hread.requests_eq⟩
        · rw [hread.length_eq, List.length_append, Nat.add_assoc]
        · rw [hread.pos_eq, Nat.add_assoc]
        · rw [hgot, if_neg (by omega : chunk.length + bodyLength reads ≠ 0)]
          simp only [List.length_append]
          split_ifs <;> omega

/-- A response that is accepted is read. -/
theorem fetchStep_accepted (start : ℕ) {s : FetchState} (hpos : s.pos ≤ stop) {status : ℕ}
    {reads : List Bytes} {ending : Ending}
    (hreply : server s.requests s.pos = .reply status reads ending)
    (hok : ¬ (status ≠ 200 ∧ status ≠ 206)) :
    ∃ s', Read { s with requests := s.requests + 1 } s' (bodyLength reads) ∧
      fetchStep server start stop s =
        match bodyEnding ending reads with
        | .failed => retry start { s' with faults := s'.faults + 1 }
        | .closed =>
          if s'.out.length = stop + 1 - start then .inr ⟨some s'.out, s'.faults⟩ else .inl s'
        | .endless => .inl s := by
  obtain ⟨hend, hread⟩ := readBody_read ending reads { s with requests := s.requests + 1 }
  refine ⟨_, hread, ?_⟩
  simp only [fetchStep, if_pos hpos, hreply, if_neg hok]
  rw [show readBody { s with requests := s.requests + 1 } ending reads
    = (_, bodyEnding ending reads) from Prod.ext rfl hend]
  cases bodyEnding ending reads <;> rfl

/-- A turn whose response breaks off ends the attempt. -/
theorem fetchStep_breaks (start : ℕ) {s : FetchState} (hpos : s.pos ≤ stop) {n : ℕ}
    (hc : (server s.requests s.pos).course = .breaks n) :
    ∃ s', Read { s with requests := s.requests + 1 } s' n ∧
      fetchStep server start stop s = retry start s' := by
  cases hreply : server s.requests s.pos with
  | raised =>
    rw [hreply] at hc
    obtain rfl : 0 = n := Course.breaks.inj hc
    exact ⟨{ s with requests := s.requests + 1, faults := s.faults + 1 },
      ⟨rfl, rfl, rfl, rfl, rfl⟩, by simp only [fetchStep, if_pos hpos, hreply]⟩
  | reply status reads ending =>
    rw [hreply, Response.course] at hc
    by_cases hbad : status ≠ 200 ∧ status ≠ 206
    · rw [if_pos hbad] at hc
      obtain rfl : 0 = n := Course.breaks.inj hc
      exact ⟨{ s with requests := s.requests + 1, faults := s.faults + 1 },
        ⟨rfl, rfl, rfl, rfl, rfl⟩, by simp only [fetchStep, if_pos hpos, hreply, if_pos hbad]⟩
    · rw [if_neg hbad] at hc
      obtain ⟨s', hread, hstep⟩ := fetchStep_accepted start hpos hreply hbad
      cases hend : bodyEnding ending reads with
      | closed => rw [hend] at hc; cases hc
      | endless => rw [hend] at hc; cases hc
      | failed =>
        rw [hend] at hc hstep
        obtain rfl : bodyLength reads = n := Course.breaks.inj hc
        exact ⟨{ s' with faults := s'.faults + 1 },
          ⟨hread.attempt_eq, hread.length_eq, hread.pos_eq, hread.got_eq, hread.requests_eq⟩,
          hstep⟩

/-- The two courses that do not break an attempt off are those of an accepted response. -/
theorem fetchStep_of_course (start : ℕ) {s : FetchState} (hpos : s.pos ≤ stop)
    (hc : ∀ n, (server s.requests s.pos).course ≠ .breaks n) :
    ∃ s', match (server s.requests s.pos).course with
      | .breaks _ => False
      | .closes n => Read { s with requests := s.requests + 1 } s' n ∧
          fetchStep server start stop s =
            if s'.out.length = stop + 1 - start then .inr ⟨some s'.out, s'.faults⟩ else .inl s'
      | .endless => fetchStep server start stop s = .inl s := by
  cases hreply : server s.requests s.pos with
  | raised => rw [hreply] at hc; exact absurd rfl (hc 0)
  | reply status reads ending =>
    rw [hreply] at hc
    simp only [Response.course] at hc ⊢
    by_cases hbad : status ≠ 200 ∧ status ≠ 206
    · rw [if_pos hbad] at hc
      exact absurd rfl (hc 0)
    · rw [if_neg hbad] at hc ⊢
      obtain ⟨s', hread, hstep⟩ := fetchStep_accepted start hpos hreply hbad
      refine ⟨s', ?_⟩
      cases hend : bodyEnding ending reads with
      | closed => rw [hend] at hstep; exact ⟨hread, hstep⟩
      | endless => rw [hend] at hstep; exact hstep
      | failed => rw [hend] at hc; exact absurd rfl (hc _)

/-- A turn whose response closes returns, or goes on behind its bytes. -/
theorem fetchStep_closes (start : ℕ) {s : FetchState} (hpos : s.pos ≤ stop) {n : ℕ}
    (hc : (server s.requests s.pos).course = .closes n) :
    ∃ s', Read { s with requests := s.requests + 1 } s' n ∧
      fetchStep server start stop s =
        if s'.out.length = stop + 1 - start then .inr ⟨some s'.out, s'.faults⟩ else .inl s' := by
  obtain ⟨s', h⟩ := fetchStep_of_course start hpos fun m hm => by
    rw [hc] at hm
    cases hm
  rw [hc] at h
  exact ⟨s', h⟩

/-- A turn whose response has no end goes nowhere. -/
theorem fetchStep_endless {s : FetchState} (hpos : s.pos ≤ stop)
    (hc : (server s.requests s.pos).course = .endless) :
    fetchStep server start stop s = .inl s := by
  obtain ⟨s', h⟩ := fetchStep_of_course start hpos fun m hm => by
    rw [hc] at hm
    cases hm
  rw [hc] at h
  exact h

/-- Past the end of the range, the attempt is over. -/
theorem fetchStep_past {s : FetchState} (hpos : ¬ s.pos ≤ stop) :
    fetchStep server start stop s = retry start s := by
  simp only [fetchStep, if_neg hpos]

/-- The position is as far past the start of the range as bytes are kept, at least. -/
def Placed (start : ℕ) (s : FetchState) : Prop := start + s.out.length ≤ s.pos

theorem placed_init (start : ℕ) : Placed start (fetchInit start) := le_rfl

theorem Placed.read {s s' : FetchState} {n : ℕ} (hs : Placed start s)
    (h : Read { s with requests := s.requests + 1 } s' n) : Placed start s' := by
  have hlen := h.length_eq
  have hpos := h.pos_eq
  simp only at hlen hpos
  rw [Placed] at hs ⊢
  omega

/-- A request that carries nothing moves nothing. -/
theorem fetchStep_nothing {s : FetchState} (hs : Placed start s) (hpos : s.pos ≤ stop)
    (hr : (server s.requests s.pos).course = .closes 0) :
    ∃ s', fetchStep server start stop s = .inl s' ∧ Placed start s' ∧ s'.pos = s.pos ∧
      s'.attempt = s.attempt ∧ s'.requests = s.requests + 1 := by
  obtain ⟨s', hread, hstep⟩ := fetchStep_closes start hpos hr
  have hlen := hread.length_eq
  have hshort : s'.out.length ≠ stop + 1 - start := by
    rw [Placed] at hs
    simp only at hlen
    omega
  rw [if_neg hshort] at hstep
  exact ⟨s', hstep, hs.read hread, hread.pos_eq, hread.attempt_eq, hread.requests_eq⟩

/-- What is left to do: attempts, and in this attempt bytes. -/
def workToDo (stop : ℕ) (s : FetchState) : ℕ :=
  (RETRIES - s.attempt) * (stop + 2) + (stop + 1 - s.pos)

/-- Ending an attempt ends the fetch or leaves one attempt less. -/
theorem retry_cases (start stop : ℕ) (s : FetchState) :
    (∃ r, retry start s = .inr r) ∨
      ∃ s', retry start s = .inl s' ∧ Placed start s' ∧
        ∀ t : FetchState, t.attempt = s.attempt → workToDo stop s' < workToDo stop t := by
  by_cases h : s.attempt + 1 < RETRIES
  · refine .inr ⟨_, if_pos h, by simp [Placed], fun t ht => ?_⟩
    have hsplit : RETRIES - s.attempt = (RETRIES - (s.attempt + 1)) + 1 := by omega
    simp only [workToDo, ht]
    rw [hsplit, Nat.add_mul, Nat.one_mul]
    omega
  · exact .inl ⟨_, if_neg h⟩

/-- **A turn** that neither meets a body without end nor is answered by nothing ends the
fetch, or leaves less work. -/
theorem fetchStep_cases {s : FetchState} (hs : Placed start s)
    (hr : s.pos ≤ stop → (server s.requests s.pos).course ≠ .endless ∧
      (server s.requests s.pos).course ≠ .closes 0) :
    (∃ r, fetchStep server start stop s = .inr r) ∨
      ∃ s', fetchStep server start stop s = .inl s' ∧ Placed start s' ∧
        workToDo stop s' < workToDo stop s := by
  -- every way an attempt ends is `retry` of a state of this attempt
  have hretry : ∀ t : FetchState, t.attempt = s.attempt →
      fetchStep server start stop s = retry start t →
        (∃ r, fetchStep server start stop s = .inr r) ∨
          ∃ s', fetchStep server start stop s = .inl s' ∧ Placed start s' ∧
            workToDo stop s' < workToDo stop s := by
    intro t ht hstep
    rw [hstep]
    rcases retry_cases start stop t with hdone | ⟨s', hs', hplaced, hlt⟩
    · exact .inl hdone
    · exact .inr ⟨s', hs', hplaced, hlt s ht.symm⟩
  by_cases hpos : s.pos ≤ stop
  swap
  · exact hretry s rfl (fetchStep_past hpos)
  obtain ⟨hendless, hnothing⟩ := hr hpos
  cases hc : (server s.requests s.pos).course with
  | endless => exact absurd hc hendless
  | breaks n =>
    obtain ⟨t, hread, hstep⟩ := fetchStep_breaks start hpos hc
    exact hretry t hread.attempt_eq hstep
  | closes n =>
    obtain ⟨s', hread, hstep⟩ := fetchStep_closes start hpos hc
    rw [hstep]
    split_ifs
    · exact .inl ⟨_, rfl⟩
    refine .inr ⟨s', rfl, hs.read hread, ?_⟩
    -- the body was not empty, so the position moves on
    have hn : n ≠ 0 := by
      rintro rfl
      exact hnothing hc
    have hatt := hread.attempt_eq
    have hmove := hread.pos_eq
    simp only at hatt hmove
    rw [workToDo, workToDo, hatt]
    omega

/-- A turn keeps the position past the bytes kept. -/
theorem Placed.step {s s' : FetchState} (hs : Placed start s)
    (h : fetchStep server start stop s = .inl s') : Placed start s' := by
  by_cases hpos : s.pos ≤ stop
  · cases hc : (server s.requests s.pos).course with
    | endless =>
      rw [fetchStep_endless hpos hc] at h
      rwa [← Sum.inl.inj h]
    | breaks n =>
      obtain ⟨t, -, hstep⟩ := fetchStep_breaks start hpos hc
      rw [hstep] at h
      obtain ⟨-, rfl⟩ := retry_eq_inl h
      simp [Placed]
    | closes n =>
      obtain ⟨t, hread, hstep⟩ := fetchStep_closes start hpos hc
      rw [hstep] at h
      split_ifs at h
      rw [← Sum.inl.inj h]
      exact hs.read hread
  · rw [fetchStep_past hpos] at h
    obtain ⟨-, rfl⟩ := retry_eq_inl h
    simp [Placed]

/-! ### Where the fetch hangs -/

/-- From this state the loop goes nowhere: the response has no end, or every further one is
accepted and empty. -/
def Stuck (server : Server) (stop : ℕ) (s : FetchState) : Prop :=
  s.pos ≤ stop ∧ ((server s.requests s.pos).course = .endless ∨
    ∀ k ≥ s.requests, (server k s.pos).course = .closes 0)

/-- Requests that carry nothing, one after the other. -/
theorem reaches_of_nothing {s : FetchState} (hs : Placed start s) (hpos : s.pos ≤ stop) {n : ℕ}
    (hn : s.requests ≤ n)
    (h : ∀ i, s.requests ≤ i → i < n → (server i s.pos).course = .closes 0) :
    ∃ s', Reaches (fetchStep server start stop) s s' ∧ Placed start s' ∧ s'.pos = s.pos ∧
      s'.attempt = s.attempt ∧ s'.requests = n := by
  induction n, hn using Nat.le_induction with
  | base => exact ⟨s, .refl, hs, rfl, rfl, rfl⟩
  | succ n hn ih =>
    obtain ⟨t, hreach, ht, htpos, htatt, htreq⟩ := ih fun i hi hlt => h i hi (by omega)
    have hr : (server t.requests t.pos).course = .closes 0 := by
      rw [htpos, htreq]
      exact h n hn (Nat.lt_succ_self n)
    have hle : t.pos ≤ stop := by omega
    obtain ⟨s', hstep, hs', hspos, hsatt, hsreq⟩ := fetchStep_nothing ht hle hr
    exact ⟨s', hreach.tail hstep, hs', by omega, by omega, by omega⟩

/-- If no state on the way is stuck, the fetch ends. -/
theorem exists_ends_of_not_stuck : ∀ (w : ℕ) (s : FetchState), workToDo stop s = w →
    Placed start s →
    (∀ s', Reaches (fetchStep server start stop) s s' → ¬ Stuck server stop s') →
    ∃ r, Ends (fetchStep server start stop) s r := by
  intro w
  induction w using Nat.strong_induction_on with
  | _ w ih =>
    intro s hw hs hstuck
    -- skip the requests that carry nothing
    obtain ⟨t, hreach, ht, htwork, hnext⟩ : ∃ t,
        Reaches (fetchStep server start stop) s t ∧ Placed start t ∧
          workToDo stop t = workToDo stop s ∧
          (t.pos ≤ stop → (server t.requests t.pos).course ≠ .closes 0) := by
      by_cases hpos : s.pos ≤ stop
      · have hex : ∃ i ≥ s.requests, (server i s.pos).course ≠ .closes 0 := by
          have hnot := hstuck s .refl
          simp only [Stuck, hpos, true_and, not_or, not_forall] at hnot
          obtain ⟨i, hi, hne⟩ := hnot.2
          exact ⟨i, hi, hne⟩
        obtain ⟨hge, hnot⟩ := Nat.find_spec hex
        obtain ⟨t, hreach, ht, htpos, htatt, htreq⟩ := reaches_of_nothing hs hpos hge
          fun i hi hlt => by
            by_contra hi'
            exact Nat.find_min hex hlt ⟨hi, hi'⟩
        refine ⟨t, hreach, ht, by rw [workToDo, workToDo, htatt, htpos], fun _ => ?_⟩
        rw [htreq, htpos]
        exact hnot
      · exact ⟨s, .refl, hs, rfl, fun h => absurd h hpos⟩
    rcases fetchStep_cases ht fun hpos =>
        ⟨fun hend => hstuck t hreach ⟨hpos, .inl hend⟩, hnext hpos⟩ with
      ⟨r, hdone⟩ | ⟨s', hstep, hs', hlt⟩
    · exact ⟨r, hreach.ends_iff.mpr (.done hdone)⟩
    · have hreach' := hreach.tail hstep
      obtain ⟨r, hr⟩ := ih (workToDo stop s') (by omega) s' rfl hs'
        fun u hu => hstuck u (hreach'.trans hu)
      exact ⟨r, hreach'.ends_iff.mpr hr⟩

/-- From a stuck state, the loop goes on. -/
theorem not_ends_of_stuck {s : FetchState} (hs : Placed start s) (h : Stuck server stop s)
    (r : Fetched) : ¬ Ends (fetchStep server start stop) s r := by
  obtain ⟨hpos, hend | hnothing⟩ := h
  · exact not_ends_of_inv (· = s) (fun t ht => ⟨s, by rw [ht, fetchStep_endless hpos hend], rfl⟩)
      rfl r
  · refine not_ends_of_inv
      (fun t => Placed start t ∧ t.pos = s.pos ∧ s.requests ≤ t.requests) ?_
      ⟨hs, rfl, le_rfl⟩ r
    rintro t ⟨ht, htpos, htreq⟩
    have hle : t.pos ≤ stop := htpos.trans_le hpos
    obtain ⟨t', hstep, ht', hpos', -, hreq'⟩ := fetchStep_nothing ht hle
      (by rw [htpos]; exact hnothing _ htreq)
    exact ⟨t', hstep, ht', by omega, by omega⟩

/-! ### The fetch -/

/-- A turn stays in its attempt, ends it, or returns bytes. -/
theorem fetchStep_attempt (server : Server) (start stop : ℕ) (s : FetchState) :
    ∃ t : FetchState, t.attempt = s.attempt ∧
      (fetchStep server start stop s = retry start t ∨ fetchStep server start stop s = .inl t ∨
        ∃ b f, fetchStep server start stop s = .inr ⟨some b, f⟩) := by
  by_cases hpos : s.pos ≤ stop
  swap
  · exact ⟨s, rfl, .inl (fetchStep_past hpos)⟩
  cases hc : (server s.requests s.pos).course with
  | endless => exact ⟨s, rfl, .inr (.inl (fetchStep_endless hpos hc))⟩
  | breaks n =>
    obtain ⟨t, hread, hstep⟩ := fetchStep_breaks start hpos hc
    exact ⟨t, hread.attempt_eq, .inl hstep⟩
  | closes n =>
    obtain ⟨t, hread, hstep⟩ := fetchStep_closes start hpos hc
    refine ⟨t, hread.attempt_eq, .inr ?_⟩
    rw [hstep]
    split_ifs
    · exact .inr ⟨_, _, rfl⟩
    · exact .inl rfl

/-- No turn starts an attempt past the last, and only the last one exits. -/
theorem attempt_step {s : FetchState} (hs : s.attempt < RETRIES) :
    (∀ s', fetchStep server start stop s = .inl s' → s'.attempt < RETRIES) ∧
      ∀ r, fetchStep server start stop s = .inr r → r.result = none → s.attempt + 1 = RETRIES := by
  obtain ⟨t, ht, hstep⟩ := fetchStep_attempt server start stop s
  rcases hstep with h | h | ⟨b, f, h⟩
  · rw [h, retry, ht]
    split_ifs with hlt
    · exact ⟨fun s' hs' => by rw [← Sum.inl.inj hs']; simpa [ht] using hlt,
        fun r hr => by cases hr⟩
    · exact ⟨fun s' hs' => (by cases hs'), fun _ _ _ => by omega⟩
  · rw [h]
    exact ⟨fun s' hs' => by rw [← Sum.inl.inj hs', ht]; exact hs, fun r hr => by cases hr⟩
  · rw [h]
    refine ⟨fun s' hs' => (by cases hs'), fun r hr hnone => ?_⟩
    rw [← Sum.inr.inj hr] at hnone
    cases hnone

/-- `fetch_bytes` ends: after finitely many turns it returns bytes, or it exits, in its last
attempt. -/
def Terminates (server : Server) (start stop : ℕ) : Prop :=
  ∃ s r, Reaches (fetchStep server start stop) (fetchInit start) s ∧
    fetchStep server start stop s = .inr r ∧ (r.result = none → s.attempt + 1 = RETRIES)

theorem terminates_iff : Terminates server start stop ↔ ∃ r, FetchBytes server start stop r := by
  constructor
  · rintro ⟨s, r, hreach, hdone, -⟩
    exact ⟨r, hreach.ends_iff.mpr (.done hdone)⟩
  · rintro ⟨r, hr⟩
    obtain ⟨s, hreach, hdone⟩ := hr.exists_last
    have hatt : s.attempt < RETRIES :=
      hreach.of_inv (·.attempt < RETRIES) (fun _ _ hs => (attempt_step hs).1 _)
        (Nat.zero_lt_succ 3)
    exact ⟨s, r, hreach, hdone, (attempt_step hatt).2 r hdone⟩

/-- The fetch ends exactly if it never comes to a state in which it is stuck. -/
theorem terminates_iff_reached (server : Server) (start stop : ℕ) :
    Terminates server start stop ↔
      ∀ s, Reaches (fetchStep server start stop) (fetchInit start) s → ¬ Stuck server stop s := by
  rw [terminates_iff]
  constructor
  · rintro ⟨r, hr⟩ s hreach hstuck
    have hplaced : Placed start s :=
      hreach.of_inv (Placed start) (fun _ _ hs => hs.step) (placed_init start)
    exact not_ends_of_stuck hplaced hstuck r (hreach.ends_iff.mp hr)
  · exact exists_ends_of_not_stuck _ _ rfl (placed_init start)

/-! ### The attempts -/

/-- A state in the attempt that began with request `i` after `got` bytes, before request
`j` and after `b` bytes of it. -/
structure At (start i got j b : ℕ) (s : FetchState) : Prop where
  requests_eq : s.requests = j
  length_eq : s.out.length = b
  pos_eq : s.pos = start + got + b
  got_eq : s.got = kept got b

theorem At.read {i got j b n : ℕ} {s s' : FetchState} (h : At start i got j b s)
    (hr : Read { s with requests := s.requests + 1 } s' n) :
    At start i got (j + 1) (b + n) s' := by
  have hgot := hr.got_eq
  have hlen := hr.length_eq
  have hpos := hr.pos_eq
  simp only [h.length_eq, h.pos_eq, h.got_eq] at hgot hlen hpos
  refine ⟨by rw [hr.requests_eq, h.requests_eq], hlen, by omega, ?_⟩
  rw [hgot]
  simp only [kept]
  split_ifs <;> omega

/-- The next attempt. -/
theorem At.retry {i got j b : ℕ} {s s' : FetchState} (h : At start i got j b s)
    (hs : Ablit.retry start s = .inl s') :
    s'.attempt = s.attempt + 1 ∧ s.attempt + 1 < RETRIES ∧ At start j (kept got b) j 0 s' := by
  obtain ⟨hlt, rfl⟩ := retry_eq_inl hs
  exact ⟨rfl, hlt, h.requests_eq, rfl, by rw [← h.got_eq]; rfl, h.got_eq⟩

/-- What the replies say of a state that is reached: which attempt it is in, and where. -/
def Asks (server : Server) (start stop : ℕ) (s : FetchState) : Prop :=
  ∃ i got, Attempt server start stop s.attempt i got ∧
    Feeds server stop i (start + got) s.requests s.out.length ∧
    At start i got s.requests s.out.length s ∧
    (s.requests = i ∨ s.out.length ≠ stop + 1 - start)

theorem asks_init (server : Server) (start stop : ℕ) : Asks server start stop (fetchInit start) :=
  ⟨0, 0, .first, .refl, ⟨rfl, rfl, rfl, rfl⟩, .inl rfl⟩

/-- The first state of the next attempt. -/
theorem Asks.next {i got j got' : ℕ} {s s' : FetchState}
    (hatt : Attempt server start stop s.attempt i got) (hf : Fails server start stop i got j got')
    (hlt : s.attempt + 1 < RETRIES) (hs' : s'.attempt = s.attempt + 1)
    (hat : At start j got' j 0 s') : Asks server start stop s' := by
  refine ⟨j, got', by rw [hs']; exact .next hatt hf hlt, ?_, ?_, .inl hat.requests_eq⟩
  · rw [hat.requests_eq, hat.length_eq]
    exact .refl
  · exact ⟨rfl, rfl, by rw [hat.pos_eq, hat.length_eq], by rw [hat.got_eq, hat.length_eq]⟩

/-- A turn asks what the replies say. -/
theorem Asks.step {s s' : FetchState} (h : Asks server start stop s)
    (hs : fetchStep server start stop s = .inl s') : Asks server start stop s' := by
  obtain ⟨i, got, hatt, hfeeds, hat, hlen⟩ := h
  by_cases hpos : s.pos ≤ stop
  · have hwithin : start + got + s.out.length ≤ stop := by rw [← hat.pos_eq]; exact hpos
    cases hc : (server s.requests s.pos).course with
    | endless =>
      rw [fetchStep_endless hpos hc] at hs
      rw [← Sum.inl.inj hs]
      exact ⟨i, got, hatt, hfeeds, hat, hlen⟩
    | breaks n =>
      obtain ⟨t, hread, hstep⟩ := fetchStep_breaks start hpos hc
      rw [hstep] at hs
      rw [hat.pos_eq] at hc
      obtain ⟨hs', hlt, hat'⟩ := (hat.read hread).retry hs
      have htatt : t.attempt = s.attempt := hread.attempt_eq
      rw [htatt] at hs' hlt
      exact Asks.next hatt (.broken hfeeds hwithin hc) hlt hs' hat'
    | closes n =>
      obtain ⟨t, hread, hstep⟩ := fetchStep_closes start hpos hc
      rw [hstep] at hs
      split_ifs at hs with hfull
      obtain rfl : t = s' := Sum.inl.inj hs
      rw [hat.pos_eq] at hc
      have hat' := hat.read hread
      have htatt : t.attempt = s.attempt := hread.attempt_eq
      refine ⟨i, got, by rwa [htatt], ?_, ?_, .inr hfull⟩
      · rw [hat'.requests_eq, hat'.length_eq]
        exact .next hfeeds hwithin hc
      · rw [hat'.requests_eq, hat'.length_eq]
        exact hat'
  · rw [fetchStep_past hpos] at hs
    obtain ⟨hs', hlt, hat'⟩ := hat.retry hs
    have hpast : stop < start + got + s.out.length := by rw [← hat.pos_eq]; omega
    exact Asks.next hatt (.short hfeeds hpast hlen) hlt hs' hat'

/-- **The requests made** are those of the attempts. -/
theorem asks_of_reaches {s : FetchState}
    (h : Reaches (fetchStep server start stop) (fetchInit start) s) : Asks server start stop s :=
  h.of_inv (Asks server start stop) (fun _ _ hs => hs.step) (asks_init server start stop)

/-- Within an attempt, the replies are asked for as long as the buffer is not complete. -/
theorem reaches_of_feeds {i got j b : ℕ} {s : FetchState} (hat : At start i got i 0 s)
    (h : Feeds server stop i (start + got) j b) (hb : j = i ∨ b ≠ stop + 1 - start) :
    ∃ s', Reaches (fetchStep server start stop) s s' ∧ s'.attempt = s.attempt ∧
      At start i got j b s' := by
  induction h with
  | refl => exact ⟨s, .refl, rfl, hat⟩
  | @next j b n hfeeds hwithin hc ih =>
    obtain ⟨t, hreach, htatt, ht⟩ := ih (.inr (by omega))
    have hc' : (server t.requests t.pos).course = .closes n := by rwa [ht.requests_eq, ht.pos_eq]
    have hle : t.pos ≤ stop := by rw [ht.pos_eq]; exact hwithin
    obtain ⟨s', hread, hstep⟩ := fetchStep_closes start hle hc'
    have hs' := ht.read hread
    have hne : s'.out.length ≠ stop + 1 - start := by
      rw [hs'.length_eq]
      rcases hb with hji | hb
      · have hle' := hfeeds.le
        omega
      · exact hb
    rw [if_neg hne] at hstep
    exact ⟨s', hreach.tail hstep, hread.attempt_eq.trans htatt, hs'⟩

/-- **Every attempt** that the replies lead to is made. -/
theorem reaches_of_attempt {n i got : ℕ} (h : Attempt server start stop n i got) :
    ∃ s, Reaches (fetchStep server start stop) (fetchInit start) s ∧ s.attempt = n ∧
      At start i got i 0 s := by
  induction h with
  | first => exact ⟨fetchInit start, .refl, rfl, rfl, rfl, rfl, rfl⟩
  | next _ hf hlt ih =>
    obtain ⟨s, hreach, hatt, hat⟩ := ih
    cases hf with
    | broken hfeeds hwithin hc =>
      obtain ⟨t, hreach', htatt, ht⟩ := reaches_of_feeds hat hfeeds (.inr (by omega))
      have hle : t.pos ≤ stop := by rw [ht.pos_eq]; exact hwithin
      obtain ⟨u, hread, hstep⟩ := fetchStep_breaks start hle (by rwa [ht.requests_eq, ht.pos_eq])
      have huatt : u.attempt = t.attempt := hread.attempt_eq
      rw [retry, if_pos (by omega)] at hstep
      obtain ⟨hs', -, hat'⟩ := (ht.read hread).retry (by rw [retry, if_pos (by omega)])
      exact ⟨_, (hreach.trans hreach').tail hstep, by omega, hat'⟩
    | short hfeeds hpast hb =>
      obtain ⟨t, hreach', htatt, ht⟩ := reaches_of_feeds hat hfeeds hb
      have hnot : ¬ t.pos ≤ stop := by rw [ht.pos_eq]; omega
      have hstep : fetchStep server start stop t = retry start t := fetchStep_past hnot
      rw [retry, if_pos (by omega)] at hstep
      obtain ⟨hs', -, hat'⟩ := ht.retry (by rw [retry, if_pos (by omega)])
      exact ⟨_, (hreach.trans hreach').tail hstep, by omega, hat'⟩

/-- **When `fetch_bytes` ends**: exactly if the replies let no attempt hang. -/
theorem fetchBytes_ends_iff (server : Server) (start stop : ℕ) :
    Terminates server start stop ↔
      ∀ n i got, Attempt server start stop n i got → ¬ Hangs server stop i (start + got) := by
  rw [terminates_iff_reached]
  constructor
  · rintro h n i got hattempt ⟨j, b, hfeeds, hwithin, hstuck⟩
    obtain ⟨s, hreach, -, hat⟩ := reaches_of_attempt hattempt
    obtain ⟨t, hreach', -, ht⟩ := reaches_of_feeds hat hfeeds (.inr (by omega))
    refine h t (hreach.trans hreach') ⟨by rw [ht.pos_eq]; exact hwithin, ?_⟩
    rwa [ht.requests_eq, ht.pos_eq]
  · rintro h s hreach ⟨hpos, hstuck⟩
    obtain ⟨i, got, hattempt, hfeeds, hat, -⟩ := asks_of_reaches hreach
    rw [hat.pos_eq] at hpos hstuck
    exact h _ _ _ hattempt ⟨_, _, hfeeds, hpos, hstuck⟩

/-- A server that answers a request for one byte with 206 and no body is asked for ever. -/
theorem fetchBytes_empty_bodies : ¬ Terminates (fun _ _ => .reply 206 [] .closed) 0 0 := by
  rw [terminates_iff]
  rintro ⟨r, hr⟩
  have hnothing : (Response.reply 206 [] .closed).course = .closes 0 := rfl
  exact not_ends_of_stuck (placed_init 0) ⟨le_rfl, .inr fun _ _ => hnothing⟩ r hr

end Glm53Serve.Ablit
