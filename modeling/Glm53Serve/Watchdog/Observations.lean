import Glm53Serve.Lib.ResetScan
import Mathlib.Data.Rat.Defs
import Mathlib.Tactic.Linarith

/-!
# Prefill observations

`scripts/prefill-watchdog.py` scrapes the cumulative counters of the engine and turns
every two adjacent snapshots into an observation (`observations_from_snapshots`). A
restart of the engine between two snapshots makes everything older worthless, so a
restart that the loop notices clears the list.

## The model

Counters and times are exact rationals. A scrape is a snapshot together with the
process it was taken from, which the watchdog does not see; processes are numbered in
the order they ran. `sources` runs the loop on the intervals themselves instead of the
observations computed from them, and so says which two snapshots each observation is
computed from.

## What is proved

* `observationsFromSnapshots_eq` — the loop returns the observations of `sources`.
* `sameProcess_iff_caught` — all observations come from the process of the last
  snapshot exactly if every process change at or after an interval that counts is
  noticed, or a later one is.
* `caught_of_complete` — in particular if no scrape misses the prompt counter or the
  start time.
-/

namespace Glm53Serve.Watchdog

open ResetScan

/-- `MetricsSnapshot`: one scrape; a metric that was not exported is `none`. -/
structure MetricsSnapshot where
  ts : ℚ
  promptTokens : Option ℚ
  ttftSum : Option ℚ
  ttftCount : Option ℚ
  processStart : Option ℚ
  bootLabel : Option String
  deriving DecidableEq

/-- `Observation`: what one interval says about prefill. -/
structure Observation where
  tokS : Option ℚ
  ttftS : Option ℚ
  promptTokens : Option ℚ
  dtS : Option ℚ
  deriving DecidableEq

/-- `current - previous`, where both were exported. -/
def delta (previous current : Option ℚ) : Option ℚ :=
  match previous, current with
  | some p, some c => some (c - p)
  | _, _ => none

/-- Both start times are exported, and differ. -/
def startChanged (previous current : MetricsSnapshot) : Bool :=
  match previous.processStart, current.processStart with
  | some p, some c => p != c
  | _, _ => false

/-- The difference is there, and negative. -/
def isNegative (d : Option ℚ) : Bool := d.any (· < 0)

@[simp] theorem isNegative_some (d : ℚ) : isNegative (some d) = decide (d < 0) := rfl

/-- The observation of an interval in which `dPrompt` prompt tokens were counted. -/
def observation (previous current : MetricsSnapshot) (dPrompt : ℚ) : Observation :=
  let dTtftSum := delta previous.ttftSum current.ttftSum
  let dTtftCount := delta previous.ttftCount current.ttftCount
  let dt := if previous.ts < current.ts then some (current.ts - previous.ts) else none
  let tokS :=
    match dTtftSum, dt with
    | some d, dt => if 0 < d then some (dPrompt / d) else dt.map (dPrompt / ·)
    | none, dt => dt.map (dPrompt / ·)
  let ttft :=
    match dTtftSum, dTtftCount with
    | some s, some n => if 0 < n then some (s / n) else none
    | _, _ => none
  { tokS := tokS, ttftS := ttft, promptTokens := some dPrompt, dtS := dt }

/-- The body of the loop of `observations_from_snapshots`. -/
def observationsStep (observations : List Observation) (previous current : MetricsSnapshot) :
    List Observation :=
  match delta previous.promptTokens current.promptTokens with
  | none => observations
  | some dPrompt =>
    if startChanged previous current then []
    else if dPrompt < 0 ∨ isNegative (delta previous.ttftSum current.ttftSum) then []
    else if dPrompt ≤ 0 then observations
    else observations ++ [observation previous current dPrompt]

/-- `observations_from_snapshots(snapshots)`. -/
def observationsFromSnapshots (snapshots : List MetricsSnapshot) : List Observation :=
  (snapshots.zip snapshots.tail).foldl (fun obs p => observationsStep obs p.1 p.2) []

/-! ### Intervals -/

/-- A restart the loop notices: both scrapes have the prompt counter, and the start
times differ or a counter went down. -/
def Noticed (previous current : MetricsSnapshot) : Prop :=
  (delta previous.promptTokens current.promptTokens).isSome ∧
    (startChanged previous current ∨ isNegative (delta previous.promptTokens current.promptTokens) ∨
      isNegative (delta previous.ttftSum current.ttftSum))

/-- An interval that counts: prompt tokens were computed in it, as far as the loop sees. -/
def Counted (previous current : MetricsSnapshot) : Prop :=
  (delta previous.promptTokens current.promptTokens).any (0 < ·) ∧ ¬ Noticed previous current

instance (previous current : MetricsSnapshot) : Decidable (Noticed previous current) :=
  inferInstanceAs (Decidable (_ ∧ _))

instance (previous current : MetricsSnapshot) : Decidable (Counted previous current) :=
  inferInstanceAs (Decidable (_ ∧ _))

/-- A snapshot and the process it was taken from. -/
structure Scrape where
  proc : ℕ
  snap : MetricsSnapshot
  deriving DecidableEq

/-- Two adjacent scrapes. -/
structure Interval where
  previous : Scrape
  current : Scrape
  deriving DecidableEq

/-- The intervals of a sequence of scrapes. -/
def intervals (ss : List Scrape) : List Interval := ss.zipWith Interval.mk ss.tail

/-- The observation computed from an interval. -/
def Interval.observation (p : Interval) : Observation :=
  Watchdog.observation p.previous.snap p.current.snap
    ((delta p.previous.snap.promptTokens p.current.snap.promptTokens).getD 0)

/-- What the loop does at an interval, with the interval itself in place of the
observation computed from it. -/
def Interval.event (p : Interval) : Event Interval :=
  if Noticed p.previous.snap p.current.snap then .reset
  else if Counted p.previous.snap p.current.snap then .emit p
  else .skip

/-- The intervals whose observations the loop returns. -/
def sources (ss : List Scrape) : List Interval := scan ((intervals ss).map Interval.event)

/-- One turn of the loop, as an event. -/
theorem observationsStep_eq (obs : List Observation) (p : Interval) :
    observationsStep obs p.previous.snap p.current.snap =
      (p.event.map Interval.observation).apply obs := by
  cases hd : delta p.previous.snap.promptTokens p.current.snap.promptTokens with
  | none => simp [observationsStep, Interval.event, Noticed, Counted, hd, Event.map, Event.apply]
  | some d =>
    by_cases hn : Noticed p.previous.snap p.current.snap
    · have hreset : startChanged p.previous.snap p.current.snap ∨ d < 0 ∨
          isNegative (delta p.previous.snap.ttftSum p.current.snap.ttftSum) := by
        simpa [Noticed, hd] using hn
      simp only [observationsStep, Interval.event, hd, if_pos hn, Event.map, Event.apply]
      rcases hreset with h | h | h <;> simp [h]
    · have hkeep : startChanged p.previous.snap p.current.snap = false ∧ ¬ d < 0 ∧
          isNegative (delta p.previous.snap.ttftSum p.current.snap.ttftSum) = false := by
        simpa [Noticed, hd] using hn
      have hc : Counted p.previous.snap p.current.snap ↔ 0 < d := by simp [Counted, hd, hn]
      simp only [observationsStep, Interval.event, hd, if_neg hn, hkeep.1, hkeep.2.2, hkeep.2.1, hc]
      by_cases hpos : 0 < d
      · simp [hpos, not_le.mpr hpos, Event.map, Event.apply, Interval.observation, hd]
      · simp [hpos, not_lt.mp hpos, Event.map, Event.apply]

/-- The loop returns the observations of `sources`. -/
theorem observationsFromSnapshots_eq (ss : List Scrape) :
    observationsFromSnapshots (ss.map Scrape.snap) = (sources ss).map Interval.observation := by
  have hzip : (ss.map Scrape.snap).zip (ss.map Scrape.snap).tail =
      (intervals ss).map fun p => (p.previous.snap, p.current.snap) := by
    rw [← List.map_tail, List.zip_map, intervals, List.map_zipWith, List.zip, List.map_zipWith]
    rfl
  rw [observationsFromSnapshots, hzip, List.foldl_map, foldl_eq_scan observationsStep_eq, sources,
    ← scan_map, List.map_map]
  rfl

/-- An observation is returned exactly if its interval counts and nothing after it is
noticed. -/
theorem mem_sources {ss : List Scrape} {p : Interval} :
    p ∈ sources ss ↔ ∃ pre suf, intervals ss = pre ++ p :: suf ∧
      Counted p.previous.snap p.current.snap ∧
        ∀ q ∈ suf, ¬ Noticed q.previous.snap q.current.snap := by
  have hreset (q : Interval) : q.event = .reset ↔ Noticed q.previous.snap q.current.snap := by
    unfold Interval.event
    split_ifs <;> simp_all
  have hemit (q : Interval) : q.event = .emit p ↔
      q = p ∧ Counted q.previous.snap q.current.snap := by
    unfold Interval.event
    split_ifs with h1 h2
    · simp [Counted, h1]
    · simp [h2]
    · simp [h2]
  rw [sources, mem_scan]
  constructor
  · rintro ⟨pre, suf, heq, hs⟩
    obtain ⟨pre', rest, hsplit, rfl, hrest⟩ := List.map_eq_append_iff.mp heq
    obtain ⟨q, suf', rfl, hq, rfl⟩ := List.map_eq_cons_iff.mp hrest
    obtain ⟨rfl, hc⟩ := (hemit q).mp hq
    refine ⟨pre', suf', hsplit, hc, fun r hr hn => hs ?_⟩
    rw [← (hreset r).mpr hn]
    exact List.mem_map_of_mem hr
  · rintro ⟨pre, suf, heq, hc, hs⟩
    refine ⟨pre.map Interval.event, suf.map Interval.event, ?_, fun hr => ?_⟩
    · rw [heq, List.map_append, List.map_cons, (hemit p).mpr ⟨rfl, hc⟩]
    · obtain ⟨r, hr, he⟩ := List.mem_map.mp hr
      exact hs r hr ((hreset r).mp he)

/-! ### Processes -/

theorem intervals_cons_cons (a b : Scrape) (ss : List Scrape) :
    intervals (a :: b :: ss) = ⟨a, b⟩ :: intervals (b :: ss) := rfl

/-- The intervals from some point on are those of the scrapes from that point on. -/
theorem intervals_eq_append {pre suf : List Interval} {p : Interval} :
    ∀ {ss : List Scrape}, intervals ss = pre ++ p :: suf →
      ∃ before after, ss = before ++ p.previous :: p.current :: after ∧
        intervals (p.current :: after) = suf := by
  induction pre with
  | nil =>
    intro ss h
    match ss with
    | [] => cases h
    | [_] => cases h
    | a :: b :: ss =>
      obtain ⟨rfl, rfl⟩ := List.cons.inj h
      exact ⟨[], ss, rfl, rfl⟩
  | cons q pre ih =>
    intro ss h
    match ss with
    | [] => cases h
    | [_] => cases h
    | a :: b :: ss =>
      obtain ⟨-, h'⟩ := List.cons.inj h
      obtain ⟨before, after, heq, hs⟩ := ih h'
      exact ⟨a :: before, after, by rw [heq]; rfl, hs⟩

/-- No process change in any interval: the process is that of the first scrape throughout. -/
theorem proc_eq_head {ss : List Scrape} : ∀ {a : Scrape},
    (∀ q ∈ intervals (a :: ss), q.previous.proc = q.current.proc) →
      ∀ x ∈ a :: ss, x.proc = a.proc := by
  induction ss with
  | nil => intro a _ x hx; rw [List.mem_singleton.mp hx]
  | cons b ss ih =>
    intro a h x hx
    rw [intervals_cons_cons] at h
    have hab : a.proc = b.proc := h ⟨a, b⟩ (List.mem_cons_self ..)
    rcases List.mem_cons.mp hx with rfl | hx
    · rfl
    · exact (ih (fun q hq => h q (List.mem_cons_of_mem _ hq)) x hx).trans hab.symm

/-- The scrapes of an interval are among the scrapes, in order. -/
theorem mem_intervals {ss : List Scrape} {q : Interval} (h : q ∈ intervals ss) :
    ∃ before after, ss = before ++ q.previous :: q.current :: after := by
  obtain ⟨pre, suf, heq⟩ := List.append_of_mem h
  obtain ⟨before, after, hs, -⟩ := intervals_eq_append heq
  exact ⟨before, after, hs⟩

/-- Where the processes are those of the first and of the last scrape alike and do not
go down, there is no process change. -/
theorem no_restart {a : Scrape} {ss : List Scrape} {n : ℕ}
    (hord : (a :: ss).Pairwise fun x y => x.proc ≤ y.proc) (ha : a.proc = n)
    (hlast : ∀ x ∈ (a :: ss).getLast?, x.proc = n) :
    ∀ q ∈ intervals (a :: ss), q.previous.proc = q.current.proc := by
  intro q hq
  obtain ⟨before, after, heq⟩ := mem_intervals hq
  have hbounds : ∀ x ∈ a :: ss, x.proc = n := by
    intro x hx
    obtain ⟨l, last, hl⟩ := (a :: ss).eq_nil_or_concat.resolve_left (List.cons_ne_nil _ _)
    have hge : a.proc ≤ x.proc := by
      rcases List.mem_cons.mp hx with rfl | hx
      · exact le_rfl
      · exact (List.pairwise_cons.mp hord).1 x hx
    have hle : x.proc ≤ last.proc := by
      rw [hl, List.concat_eq_append] at hx hord
      rcases List.mem_append.mp hx with hx | hx
      · exact (List.pairwise_append.mp hord).2.2 x hx last (List.mem_singleton.mpr rfl)
      · rw [List.mem_singleton.mp hx]
    have := hlast last (by rw [hl]; simp)
    omega
  rw [hbounds q.previous (by rw [heq]; simp), hbounds q.current (by rw [heq]; simp)]

/-- The counters that both snapshots have do not go down. -/
def CountersLe (a b : MetricsSnapshot) : Prop :=
  (∀ d ∈ delta a.promptTokens b.promptTokens, 0 ≤ d) ∧ (∀ d ∈ delta a.ttftSum b.ttftSum, 0 ≤ d) ∧
    ∀ d ∈ delta a.ttftCount b.ttftCount, 0 ≤ d

/-- Processes follow one another. -/
def InOrder (ss : List Scrape) : Prop := ss.Pairwise fun a b => a.proc ≤ b.proc

/-- What is assumed of a sequence of scrapes: processes follow one another, the counters of a
process do not go down, and every scrape carries evidence of its process; where two scrapes carry
the same part of it, that part tells their processes apart. Any counter may be missing. -/
structure Scraped (ss : List Scrape) : Prop where
  ordered : InOrder ss
  monotone : ss.Pairwise fun a b => a.proc = b.proc → CountersLe a.snap b.snap
  carries : ∀ a ∈ ss, a.snap.processStart.isSome ∨ a.snap.bootLabel.isSome
  start : ∀ a ∈ ss, ∀ b ∈ ss, ∀ x ∈ a.snap.processStart, ∀ y ∈ b.snap.processStart,
    x = y ↔ a.proc = b.proc
  label : ∀ a ∈ ss, ∀ b ∈ ss, ∀ x ∈ a.snap.bootLabel, ∀ y ∈ b.snap.bootLabel,
    x = y ↔ a.proc = b.proc

/-- Every observation is computed from two snapshots of the last snapshot's process. -/
def SameProcess (ss : List Scrape) : Prop :=
  ∀ p ∈ sources ss, ∀ last ∈ ss.getLast?, p.previous.proc = last.proc ∧ p.current.proc = last.proc

/-- Every process change at or after an interval that counts is noticed, or a later one
is: after an interval that counts and is the last to be followed by a noticed restart,
the process does not change. -/
def Caught (ss : List Scrape) : Prop :=
  ∀ pre p suf, intervals ss = pre ++ p :: suf → Counted p.previous.snap p.current.snap →
    (∀ q ∈ suf, ¬ Noticed q.previous.snap q.current.snap) →
      ∀ q ∈ p :: suf, q.previous.proc = q.current.proc

/-- **When the watchdog does not mix two engine processes**: the observations returned
are those of `sources`, and they all come from the process of the last snapshot exactly
if no process change slips through at or after an interval that counts. -/
theorem sameProcess_iff_caught {ss : List Scrape} (h : InOrder ss) :
    observationsFromSnapshots (ss.map Scrape.snap) = (sources ss).map Interval.observation ∧
      (SameProcess ss ↔ Caught ss) := by
  refine ⟨observationsFromSnapshots_eq ss, fun hsame => ?_, fun hcaught => ?_⟩
  · intro pre p suf heq hc hn
    have hp := mem_sources.mpr ⟨pre, suf, heq, hc, hn⟩
    obtain ⟨before, after, hss, hsuf⟩ := intervals_eq_append heq
    have hord : (p.previous :: p.current :: after).Pairwise fun x y => x.proc ≤ y.proc := by
      rw [InOrder, hss] at h
      exact (List.pairwise_append.mp h).2.1
    have hlast : ∀ x ∈ (p.previous :: p.current :: after).getLast?, x ∈ ss.getLast? := by
      intro x hx
      rw [hss, List.getLast?_append_of_ne_nil _ (List.cons_ne_nil _ _)]
      exact hx
    have hprev : ∀ x ∈ (p.previous :: p.current :: after).getLast?, x.proc = p.previous.proc :=
      fun x hx => (hsame p hp x (hlast x hx)).1.symm
    have hno := no_restart hord rfl hprev
    rwa [intervals_cons_cons, hsuf] at hno
  · intro p hp last hlast
    obtain ⟨pre, suf, heq, hc, hn⟩ := mem_sources.mp hp
    obtain ⟨before, after, hss, hsuf⟩ := intervals_eq_append heq
    have hno := hcaught pre p suf heq hc hn
    rw [← hsuf, ← intervals_cons_cons] at hno
    have hproc := proc_eq_head hno
    have hmem : last ∈ p.previous :: p.current :: after := by
      rw [hss, List.getLast?_append_of_ne_nil _ (List.cons_ne_nil _ _)] at hlast
      exact List.mem_of_getLast? hlast
    have hl := hproc last hmem
    exact ⟨hl.symm, (hproc p.current (by simp)).trans hl.symm⟩

/-- A scrape of process `proc` at time `ts` with the prompt counter, the start time and
no histogram. -/
def promptScrape (proc : ℕ) (ts : ℚ) (prompt start : Option ℚ) : Scrape :=
  ⟨proc, ⟨ts, prompt, none, none, start, none⟩⟩

/-- Two intervals of one process. -/
theorem sameProcess_iff_caught_one :
    Scraped [promptScrape 0 0 (some 10) (some 1), promptScrape 0 1 (some 20) (some 1)] ∧
      (SameProcess [promptScrape 0 0 (some 10) (some 1), promptScrape 0 1 (some 20) (some 1)] ↔
        Caught [promptScrape 0 0 (some 10) (some 1), promptScrape 0 1 (some 20) (some 1)]) := by
  have h : Scraped [promptScrape 0 0 (some 10) (some 1), promptScrape 0 1 (some 20) (some 1)] := by
    constructor <;> simp [InOrder, promptScrape, CountersLe, delta]
    norm_num
  exact ⟨h, (sameProcess_iff_caught h.ordered).2⟩

/-- A restart behind a scrape without the prompt counter: process 0 counts 10 and 20
tokens, then process 1 is scraped before it exports the counter, then at 5 and at 9.
The observation of process 0 is still returned. -/
theorem sameProcess_hidden_restart :
    Scraped [promptScrape 0 0 (some 10) (some 1), promptScrape 0 1 (some 20) (some 1),
        promptScrape 1 2 none (some 2), promptScrape 1 3 (some 5) (some 2),
        promptScrape 1 4 (some 9) (some 2)] ∧
      ¬ SameProcess [promptScrape 0 0 (some 10) (some 1), promptScrape 0 1 (some 20) (some 1),
        promptScrape 1 2 none (some 2), promptScrape 1 3 (some 5) (some 2),
        promptScrape 1 4 (some 9) (some 2)] := by
  constructor
  · constructor <;> simp [InOrder, promptScrape, CountersLe, delta]
    norm_num
  · intro h
    have := (h ⟨promptScrape 0 0 (some 10) (some 1), promptScrape 0 1 (some 20) (some 1)⟩
      (by decide +kernel)
      (promptScrape 1 4 (some 9) (some 2)) (by decide)).1
    exact absurd this (by decide)

/-- Where no scrape misses the prompt counter or the start time, and start times tell
processes apart, every process change is noticed. -/
theorem caught_of_complete {ss : List Scrape}
    (hprompt : ∀ a ∈ ss, a.snap.promptTokens.isSome) (hstart : ∀ a ∈ ss, a.snap.processStart.isSome)
    (hdistinct : ∀ a ∈ ss, ∀ b ∈ ss, a.snap.processStart = b.snap.processStart → a.proc = b.proc) :
    Caught ss := by
  have hnoticed : ∀ q ∈ intervals ss, q.previous.proc ≠ q.current.proc →
      Noticed q.previous.snap q.current.snap := by
    intro q hq hne
    obtain ⟨before, after, hss⟩ := mem_intervals hq
    have hp : q.previous ∈ ss := by rw [hss]; simp
    have hc : q.current ∈ ss := by rw [hss]; simp
    obtain ⟨x, hx⟩ := Option.isSome_iff_exists.mp (hprompt _ hp)
    obtain ⟨y, hy⟩ := Option.isSome_iff_exists.mp (hprompt _ hc)
    obtain ⟨s, hs⟩ := Option.isSome_iff_exists.mp (hstart _ hp)
    obtain ⟨t, ht⟩ := Option.isSome_iff_exists.mp (hstart _ hc)
    have hst : s ≠ t := fun e => hne (hdistinct _ hp _ hc (by rw [hs, ht, e]))
    exact ⟨by simp [delta, hx, hy], Or.inl (by simp [startChanged, hs, ht, hst])⟩
  intro pre p suf heq hc hn q hq
  by_contra hne
  have hmem : q ∈ intervals ss := by rw [heq]; exact List.mem_append_right _ hq
  rcases List.mem_cons.mp hq with rfl | hq
  · exact hc.2 (hnoticed q hmem hne)
  · exact hn q hq (hnoticed q hmem hne)

end Glm53Serve.Watchdog
