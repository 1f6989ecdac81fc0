import Glm53Serve.Lib.HalfEven
import Glm53Serve.Lib.MapM
import Glm53Serve.Watchdog.Analysis
import Glm53Serve.Watchdog.Observations
import Glm53Serve.Watchdog.Tail

/-!
# The report of the watchdog

`main` of `scripts/prefill-watchdog.py` collects scrapes, from files or from the server, and the
tail of a log, judges each of the two series, and reports the worse verdict with the numbers of the
record that it comes from. The exit code is 0 where the throughput is healthy, 1 where nothing can
be said, and 2 where it is degraded.

## The model

What a path or the server gives is free: a snapshot, the text of a `WatchdogError`, or an
exception of another kind, which `main` does not catch. So are the pauses between the scrapes as far
as `time.sleep` refuses an interval. The patterns that a log line is searched for, and the number in
a match, are parameters; numbers are exact, also where they are rounded for the report. The argument
parser, the bearer token and what printing raises are left out.

## What is proved

* `SeriesAnalysis.Shows.map` — rounding does not turn the comparison that a status stands for.
* `serverEscapes_iff` — when an exception of the scrapes or the pauses is not caught.
* `main_verdict` — what leaves `main` uncaught; otherwise what the exit code says of the series that
  were consulted, and that the report shows it.
-/

namespace Glm53Serve.Watchdog

open Py HalfEven Rank

/-! ### The log -/

/-- `_LOG_PATTERNS`. -/
inductive LogPattern where
  /-- `Avg prompt throughput: N tokens/s`. -/
  | average
  /-- `prefill=N`, `prefill_tok_s: N`. -/
  | assigned
  /-- `prefill … N tok/s`. -/
  | sentence
  /-- `"prefill_tok_s": N`. -/
  | json
  deriving DecidableEq, Repr

def logPatterns : List LogPattern := [.average, .assigned, .sentence, .json]

/-- What the patterns find in a line, and the finite number in what they find. -/
structure LogReader where
  search : LogPattern → Text → Option Text
  /-- `_parse_value`. -/
  value : Text → Option ℚ

/-- The number of the first pattern that finds one. -/
def lineValue (reader : LogReader) (line : Text) : Option ℚ :=
  logPatterns.findSome? fun pattern => (reader.search pattern line).bind reader.value

/-- `parse_log_values`: the values, and how many lines were an idle heartbeat. -/
def parseLogValues (reader : LogReader) (lines : List Text) : List ℚ × ℕ :=
  let found := lines.filterMap (lineValue reader)
  (found.filter (0 < ·), found.countP (· ≤ 0))

/-! ### The arguments and the inputs -/

/-- A number that `float` has read. -/
inductive FloatArg where
  | nan
  | posInf
  | negInf
  | finite (x : ℚ)
  deriving DecidableEq

/-- `0 < x < 1`. -/
def FloatArg.InUnit : FloatArg → Prop
  | .finite x => 0 < x ∧ x < 1
  | _ => False

instance (x : FloatArg) : Decidable x.InUnit :=
  match x with
  | .finite _ => inferInstanceAs (Decidable (_ ∧ _))
  | .nan | .posInf | .negInf => inferInstanceAs (Decidable False)

/-- `x <= 0`. -/
def FloatArg.Nonpos : FloatArg → Prop
  | .finite x => x ≤ 0
  | .negInf => True
  | _ => False

instance (x : FloatArg) : Decidable x.Nonpos :=
  match x with
  | .finite _ => inferInstanceAs (Decidable (_ ≤ _))
  | .negInf => inferInstanceAs (Decidable True)
  | .nan | .posInf => inferInstanceAs (Decidable False)

/-- The number, where it is one. -/
def FloatArg.value : FloatArg → ℚ
  | .finite x => x
  | _ => 0

/-- The arguments that `main` uses. -/
structure Args (P : Type) where
  window : ℤ
  threshold : FloatArg
  baselineWindow : ℤ
  samples : ℤ
  interval : FloatArg
  metricsFiles : List P
  logFile : Option P
  tailLines : ℤ

/-- An exception that `main` does not catch. -/
inductive Escape where
  | valueError (text : String)
  | overflowError (text : String)
  /-- What a scrape raises apart from `WatchdogError`: `IncompleteRead`, `InvalidURL`. -/
  | scrape (text : Text)
  /-- What `is_file` raises: `PermissionError`. -/
  | isFile (text : Text)

/-- What the collection of snapshots raises. -/
inductive Failure where
  | watchdogError (text : Text)
  | escapes (e : Escape)

/-- What `time.sleep` raises: it counts nanoseconds in 64 bits. -/
def sleepError : FloatArg → Option Escape
  | .nan => some (.valueError "Invalid value NaN (not a number)")
  | .posInf | .negInf => some (.overflowError "timestamp too large to convert to C _PyTime_t")
  | .finite x =>
    if x < 0 then some (.valueError "sleep length must be non-negative")
    else if x * 10 ^ 9 < 2 ^ 63 then none
    else some (.overflowError "timestamp too large to convert to C _PyTime_t")

/-- What the paths and the server give. -/
structure World (P : Type) where
  /-- `snapshot_from_file`; the text is that of a `WatchdogError`. -/
  snapshot : P → Except Text MetricsSnapshot
  /-- The scrapes of the server, in turn: `fetch_metrics_snapshot`. -/
  scrape : ℕ → Except Failure MetricsSnapshot
  /-- `is_file`, or the text of an `OSError`. -/
  isFile : P → Except Text Bool
  content : P → Option Bytes
  reader : LogReader
  block : ℕ+
  defaultLog : P

/-- What `main` lists under `errors`. -/
inductive Trouble (P : Type) where
  /-- A snapshot that cannot be read, with the text of `WatchdogError`. -/
  | snapshot (text : Text)
  | tail (path : P) (e : TailError)
  /-- `log file not found`. -/
  | notFound (path : P)
  /-- `no usable prefill samples (metrics and log were empty or idle)`. -/
  | noSamples

/-- What `main` lists under `notes`. -/
inductive Note (P : Type) where
  /-- `metrics unavailable`. -/
  | metricsUnavailable (text : Text)
  /-- `log file not found`. -/
  | notFound (path : P)

/-! ### The records -/

/-- `method`. -/
inductive Method where
  | ttftSum
  | wallTime
  | none
  deriving DecidableEq, Repr

/-- The fields of a record that only one of the two sources has. -/
inductive Detail (P : Type) where
  | metrics (scrapes observations : ℕ) (ttftValues : List ℚ) (method : Method)
  | log (path : P) (linesRead zeroLinesSkipped : ℕ)

/-- `source`. -/
inductive Source where
  | metrics
  | log
  deriving DecidableEq, Repr

structure Record (P : Type) where
  values : List ℚ
  /-- `to_dict`: the rounded analysis. -/
  analysis : SeriesAnalysis ℚ
  status : Status
  detail : Detail P

def Record.source {P : Type} (r : Record P) : Source :=
  match r.detail with
  | .metrics _ _ _ _ => .metrics
  | .log _ _ _ => .log

/-- `to_dict`. -/
def SeriesAnalysis.rounded (a : SeriesAnalysis ℚ) : SeriesAnalysis ℚ :=
  { a with
    baseline := a.baseline.map (roundTo 4)
    recent := a.recent.map (roundTo 4)
    dropFraction := a.dropFraction.map (roundTo 4)
    cutoff := a.cutoff.map (roundTo 4) }

section Main

variable {P : Type} (a : Args P) (w : World P)

/-- The throughputs of the intervals between snapshots. -/
def throughputs (snapshots : List MetricsSnapshot) : List ℚ :=
  (observationsFromSnapshots snapshots).filterMap (·.tokS)

/-- `analyze_metrics_snapshots`; what it raises is a `ValueError`. -/
def analyzeMetricsSnapshots (snapshots : List MetricsSnapshot) : Except String (Record P) :=
  let observations := observationsFromSnapshots snapshots
  let values := throughputs snapshots
  (analyzeSeries (values.map .finite) a.window a.threshold.value a.baselineWindow).map
      fun analysis =>
    { values := values.map (roundTo 4)
      analysis := analysis.rounded
      status := analysis.status
      detail := .metrics snapshots.length observations.length
        ((observations.filterMap (·.ttftS)).map (roundTo 6))
        (if observations.any (·.ttftS.isSome) then .ttftSum else if values ≠ [] then
          .wallTime else .none) }

/-- `analyze_log_file` of the lines of the tail; what it raises is a `ValueError`. -/
def analyzeLogLines (path : P) (lines : List Text) : Except String (Record P) :=
  let (values, zeroLines) := parseLogValues w.reader lines
  (analyzeSeries (values.map .finite) a.window a.threshold.value a.baselineWindow).map
      fun analysis =>
    { values := values.map (roundTo 4)
      analysis := analysis.rounded
      status := analysis.status
      detail := .log path lines.length zeroLines }

/-! ### The stages of `main` -/

/-- The checks of the arguments: the text on `stderr` for the first that fails. -/
def checkArgs : Option String :=
  if a.window < 1 then some "error: --window must be >= 1"
  else if a.baselineWindow < 1 then some "error: --baseline-window must be >= 1"
  else if ¬a.threshold.InUnit then some "error: --threshold must be between 0 and 1"
  else if a.samples < 0 then some "error: --samples must be >= 0"
  else if a.interval.Nonpos then some "error: --interval must be > 0"
  else none

/-- What the stages have collected. -/
structure Gathered (P : Type) where
  analyses : List (Record P) := []
  errors : List (Trouble P) := []
  notes : List (Note P) := []

/-- How often `main` scrapes the server. -/
def scrapes : ℕ := (max (if a.samples ≠ 0 then a.samples else a.window + 4) 2).toNat

/-- `collect_metrics_files`. -/
def collectMetricsFiles : Except Failure (List MetricsSnapshot) :=
  (a.metricsFiles.mapM w.snapshot).mapError .watchdogError

/-- A scrape, after the pause that comes before all but the first. -/
def pausedScrape (index : ℕ) : Except Failure MetricsSnapshot :=
  if index = 0 then w.scrape index
  else
    match sleepError a.interval with
    | some e => .error (.escapes e)
    | none => w.scrape index

/-- `collect_http_snapshots`. -/
def collectHttpSnapshots : Except Failure (List MetricsSnapshot) :=
  (List.range (scrapes a)).mapM (pausedScrape a w)

/-- The snapshots that `main` asks for, and whether they come from files. -/
def snapshots : Option (Bool × Except Failure (List MetricsSnapshot)) :=
  if a.metricsFiles ≠ [] then some (true, collectMetricsFiles a w)
  else if a.logFile = none then some (false, collectHttpSnapshots a w)
  else none

/-- The first stage: fixtures, or scrapes of the server where no input is given. -/
def metricsStage : Except Escape (Gathered P) :=
  match snapshots a w with
  | none => .ok {}
  | some (_, .error (.escapes e)) => .error e
  | some (explicit, .error (.watchdogError text)) =>
    .ok (if explicit then { errors := [.snapshot text] }
      else { notes := [.metricsUnavailable text] })
  | some (_, .ok snapshots) =>
    ((analyzeMetricsSnapshots a snapshots).mapError .valueError).map fun r => { analyses := [r] }

/-- `log_path`. -/
def logPath : Option P :=
  match a.logFile with
  | some path => some path
  | none => if a.metricsFiles = [] then some w.defaultLog else none

/-- `use_log`. -/
def useLog (g : Gathered P) : Bool :=
  a.logFile.isSome ||
    (a.metricsFiles.isEmpty && (g.analyses.isEmpty || g.analyses.any (·.status = .insufficient)))

/-- The second stage: the log. -/
def logStage (g : Gathered P) : Except Escape (Gathered P) :=
  match logPath a w with
  | none => .ok g
  | some path =>
    if useLog a g = false then .ok g
    else
      match w.isFile path with
      | .error text => .error (.isFile text)
      | .ok true =>
        match readTail w.block (w.content path) a.tailLines with
        | .error e => .ok { g with errors := g.errors ++ [.tail path e] }
        | .ok lines => ((analyzeLogLines a w path lines).mapError .valueError).map fun r =>
          { g with analyses := g.analyses ++ [r] }
      | .ok false =>
        if a.logFile.isSome then .ok { g with errors := g.errors ++ [.notFound path] }
        else .ok { g with notes := g.notes ++ [.notFound path] }

/-! ### The report -/

inductive Verdict where
  | error
  | ok
  | degraded
  deriving DecidableEq, Repr

/-- The payload of `_result`. -/
structure Payload (P : Type) where
  status : Verdict
  degraded : Bool
  exitCode : ℕ
  /-- The sources that are joined by `+`; none are `none`. -/
  source : List Source
  window : ℤ
  threshold : FloatArg
  baselineWindow : ℤ
  baselineTokS : Option ℚ
  recentTokS : Option ℚ
  dropFraction : Option ℚ
  cutoffTokS : Option ℚ
  sources : List (Record P)
  errors : List (Trouble P)
  notes : List (Note P)

/-- The record whose numbers are shown. -/
def primaryRecord (analyses : List (Record P)) : Option (Record P) :=
  match analyses.find? (·.status = .degraded) with
  | some r => some r
  | none => (analyses.find? (·.status = .ok)).or analyses.head?

/-- `_result`. -/
def result (status : Verdict) (exitCode : ℕ) (source : List Source) (g : Gathered P) : Payload P :=
  let primary := (primaryRecord g.analyses).map (·.analysis)
  { status := status
    degraded := status = .degraded
    exitCode := exitCode
    source := source
    window := a.window
    threshold := a.threshold
    baselineWindow := a.baselineWindow
    baselineTokS := (primary.bind (·.baseline)).map (roundTo 4)
    recentTokS := (primary.bind (·.recent)).map (roundTo 4)
    dropFraction := (primary.bind (·.dropFraction)).map (roundTo 4)
    cutoffTokS := (primary.bind (·.cutoff)).map (roundTo 4)
    sources := g.analyses
    errors := g.errors
    notes := g.notes }

/-- The end of `main`. -/
def conclude (g : Gathered P) : Payload P :=
  let usable := g.analyses.filter fun r => r.status ≠ .insufficient
  if g.errors ≠ [] then result a .error 1 (g.analyses.map (·.source)) g
  else if usable = [] then result a .error 1 (g.analyses.map (·.source))
    { g with errors := [.noSamples] }
  else if usable.any (·.status = .degraded) then result a .degraded 2 (usable.map (·.source)) g
  else result a .ok 0 (usable.map (·.source)) g

/-- What a run of `main` prints. -/
inductive Outcome (P : Type) where
  | usage (text : String)
  | report (payload : Payload P)

def Outcome.exitCode : Outcome P → ℕ
  | .usage _ => 1
  | .report payload => payload.exitCode

/-- `main`; an error is an exception that it does not catch. -/
def main : Except Escape (Outcome P) :=
  match checkArgs a with
  | some text => .ok (.usage text)
  | none => do
    let g ← metricsStage a w
    let g ← logStage a w g
    return .report (conclude a g)

end Main

/-! ### The numbers of a record -/

/-- The two medians of an analysis agree with a status. -/
def SeriesAnalysis.Shows (an : SeriesAnalysis ℚ) (status : Status) : Prop :=
  (status = .degraded → ∃ recent cutoff, an.recent = some recent ∧ an.cutoff = some cutoff ∧
    recent ≤ cutoff) ∧
    (status = .ok → ∃ recent cutoff, an.recent = some recent ∧ an.cutoff = some cutoff ∧
      cutoff ≤ recent)

/-- Rounding does not turn the comparison. -/
theorem SeriesAnalysis.Shows.map {an an' : SeriesAnalysis ℚ} {status : Status} (h : an.Shows status)
    {digits : ℕ}
    (hrecent : an'.recent = an.recent.map (roundTo digits))
    (hcutoff : an'.cutoff = an.cutoff.map (roundTo digits)) :
    an'.Shows status := by
  constructor
  · intro hs
    obtain ⟨recent, cutoff, hr, hc, hle⟩ := h.1 hs
    exact ⟨_, _, by rw [hrecent, hr]; rfl, by rw [hcutoff, hc]; rfl, roundTo_mono digits hle⟩
  · intro hs
    obtain ⟨recent, cutoff, hr, hc, hle⟩ := h.2 hs
    exact ⟨_, _, by rw [hrecent, hr]; rfl, by rw [hcutoff, hc]; rfl, roundTo_mono digits hle⟩

theorem analyzeSeries_shows {values : List (Reading ℚ)} {window baselineWindow : ℤ} {threshold : ℚ}
    {an : SeriesAnalysis ℚ} (h : analyzeSeries values window threshold baselineWindow = .ok an) :
    an.Shows an.status := by
  unfold analyzeSeries at h
  dsimp only at h
  split_ifs at h
  · cases h
    exact ⟨fun h => (Status.noConfusion h), fun h => (Status.noConfusion h)⟩
  · split at h
    · rename_i baseline recent _ _
      cases h
      by_cases hle : recent ≤ baseline * (1 - threshold)
      · exact ⟨fun _ => ⟨recent, _, rfl, rfl, hle⟩, fun hs => by simp [compared, hle] at hs⟩
      · exact ⟨fun hs => by simp [compared, hle] at hs, fun _ => ⟨recent, _, rfl, rfl,
          (not_le.mp hle).le⟩⟩
    · cases h
      exact ⟨fun h => (Status.noConfusion h), fun h => (Status.noConfusion h)⟩

section Verdict

variable {P : Type} (a : Args P) (w : World P)

/-- The verdict on a series. -/
def judge (values : List ℚ) : Status :=
  verdict a.threshold.value
    (median (baselineValues a.window.toNat a.baselineWindow.toNat (clean (values.map .finite))))
    (median (recentValues a.window.toNat (clean (values.map .finite))))

/-- The arguments that the checks let through. -/
structure Valid : Prop where
  window : 1 ≤ a.window
  baselineWindow : 1 ≤ a.baselineWindow
  pos : 0 < a.threshold.value
  lt_one : a.threshold.value < 1

variable {a w}

theorem valid_of_check (h : checkArgs a = none) : Valid a := by
  unfold checkArgs at h
  split_ifs at h with h₁ h₂ h₃ h₄ h₅
  cases hthreshold : a.threshold with
  | finite x =>
    rw [hthreshold] at h₃
    exact ⟨not_lt.mp h₁, not_lt.mp h₂, by rw [hthreshold]; exact h₃.1,
      by rw [hthreshold]; exact h₃.2⟩
  | nan => simp [hthreshold, FloatArg.InUnit] at h₃
  | posInf => simp [hthreshold, FloatArg.InUnit] at h₃
  | negInf => simp [hthreshold, FloatArg.InUnit] at h₃

/-- A record of a series: its status is the verdict, and its numbers show it. -/
structure Record.Judges (r : Record P) (a : Args P) (values : List ℚ) : Prop where
  status : r.status = judge a values
  shows : r.analysis.Shows r.status

theorem analyzeSeries_judges (h : Valid a) (values : List ℚ) :
    ∃ an, analyzeSeries (values.map .finite) a.window a.threshold.value a.baselineWindow = .ok an ∧
      an.status = judge a values ∧ an.rounded.Shows an.status := by
  obtain ⟨an, han, hstatus, -⟩ :=
    analyze_eq h.window h.baselineWindow h.pos h.lt_one (values.map .finite)
  exact ⟨an, han, hstatus, (analyzeSeries_shows han).map rfl rfl⟩

theorem analyzeMetricsSnapshots_judges (h : Valid a) (snapshots : List MetricsSnapshot) :
    ∃ r, analyzeMetricsSnapshots a snapshots = .ok r ∧ r.Judges a (throughputs snapshots) := by
  obtain ⟨an, han, hstatus, hshows⟩ := analyzeSeries_judges h (throughputs snapshots)
  simp only [analyzeMetricsSnapshots, han]
  exact ⟨_, rfl, hstatus, hshows⟩

theorem analyzeLogLines_judges (h : Valid a) (path : P) (lines : List Text) :
    ∃ r, analyzeLogLines a w path lines = .ok r ∧ r.Judges a (parseLogValues w.reader lines).1 := by
  obtain ⟨an, han, hstatus, hshows⟩ := analyzeSeries_judges h (parseLogValues w.reader lines).1
  simp only [analyzeLogLines, han]
  exact ⟨_, rfl, hstatus, hshows⟩

/-! ### The series that are consulted -/

variable (a w)

/-- The throughputs that are read from the files or the server, if they can be read. -/
def metricsSeries : Option (List ℚ) := (snapshots a w).bind fun s => s.2.toOption.map throughputs

/-- The log is consulted where it is asked for, or where no input is and the server says nothing. -/
def WantsLog : Prop :=
  a.logFile.isSome ∨ a.metricsFiles = [] ∧ ∀ values ∈ metricsSeries a w, judge a values =
    .insufficient

/-- The log that is consulted. -/
def consultedLog : P := a.logFile.getD w.defaultLog

/-- The values in the last lines of the whole log. -/
def logSeries : Option (List ℚ) :=
  if 1 ≤ a.tailLines then
    (w.content (consultedLog a w)).map fun file =>
      (parseLogValues w.reader (lastItems a.tailLines.toNat (strSplitlines (decode file)))).1
  else none

/-- The values of a consulted source. -/
def Consulted (values : List ℚ) : Prop :=
  metricsSeries a w = some values ∨
    WantsLog a w ∧ w.isFile (consultedLog a w) = .ok true ∧ logSeries a w = some values

/-- An input that was asked for is not there, or the log is and cannot be read. -/
def Failed : Prop :=
  a.metricsFiles ≠ [] ∧ metricsSeries a w = none ∨
    WantsLog a w ∧ (w.isFile (consultedLog a w) = .ok true ∧ logSeries a w = none ∨
      w.isFile (consultedLog a w) = .ok false ∧ a.logFile.isSome = true)

/-- The server is asked, and after some snapshots an exception comes that is no `WatchdogError`: of
the first pause, or of a scrape. -/
def ServerEscapes (e : Escape) : Prop :=
  a.metricsFiles = [] ∧ a.logFile = none ∧ ∃ i < scrapes a,
    (∀ j < i, ∃ snapshot, w.scrape j = .ok snapshot) ∧
      (i = 1 ∧ sleepError a.interval = some e ∨
        (i = 0 ∨ sleepError a.interval = none) ∧ w.scrape i = .error (.escapes e))

/-- What is not caught comes from the server, or from the look for the log. -/
def Escapes (e : Escape) : Prop :=
  ServerEscapes a w e ∨ (∀ e, ¬ServerEscapes a w e) ∧ WantsLog a w ∧
    ∃ text, w.isFile (consultedLog a w) = .error text ∧ e = .isFile text

/-! ### The stages -/

variable {a w}

theorem snapshots_none (h : snapshots a w = none) : a.metricsFiles = [] := by
  by_contra hfiles
  rw [snapshots, if_pos hfiles] at h
  cases h

theorem snapshots_some {explicit : Bool} {r : Except Failure (List MetricsSnapshot)}
    (h : snapshots a w = some (explicit, r)) : explicit = true ↔ a.metricsFiles ≠ [] := by
  unfold snapshots at h
  split_ifs at h with hfiles hlog
  · cases h
    exact iff_of_true rfl hfiles
  · cases h
    exact iff_of_false Bool.false_ne_true hfiles

theorem pausedScrape_ok {i : ℕ} {snapshot : MetricsSnapshot}
    (h : pausedScrape a w i = .ok snapshot) :
    w.scrape i = .ok snapshot ∧ (i = 0 ∨ sleepError a.interval = none) := by
  unfold pausedScrape at h
  split_ifs at h with hi
  · exact ⟨h, .inl hi⟩
  · cases hsleep : sleepError a.interval with
    | none => exact ⟨by simpa [hsleep] using h, .inr rfl⟩
    | some e => simp [hsleep] at h

/-- An exception of the collection is the first pause's, or comes with a scrape. -/
theorem collectHttpSnapshots_escapes {e : Escape} :
    collectHttpSnapshots a w = .error (.escapes e) ↔ ∃ i < scrapes a,
      (∀ j < i, ∃ snapshot, w.scrape j = .ok snapshot) ∧
        (i = 1 ∧ sleepError a.interval = some e ∨
          (i = 0 ∨ sleepError a.interval = none) ∧ w.scrape i = .error (.escapes e)) := by
  rw [collectHttpSnapshots, Except.mapM_range_error_iff]
  constructor
  · rintro ⟨i, hi, hbefore, hfails⟩
    refine ⟨i, hi, fun j hj => ?_, ?_⟩
    · obtain ⟨snapshot, hsnapshot⟩ := hbefore j hj
      exact ⟨snapshot, (pausedScrape_ok hsnapshot).1⟩
    · unfold pausedScrape at hfails
      split_ifs at hfails with hzero
      · exact .inr ⟨.inl hzero, hfails⟩
      · cases hsleep : sleepError a.interval with
        | none => exact .inr ⟨.inr rfl, by simpa [hsleep] using hfails⟩
        | some e' =>
          have heq : e' = e := by simpa [hsleep] using hfails
          refine .inl ⟨?_, by rw [heq]⟩
          -- the second pause would not come after the first
          by_contra hne
          obtain ⟨_, hone⟩ := hbefore 1 (by omega)
          simpa [hsleep] using (pausedScrape_ok hone).2
  · rintro ⟨i, hi, hbefore, ⟨rfl, hsleep⟩ | ⟨hpause, hscrape⟩⟩
    · refine ⟨1, hi, fun j hj => ?_, by simp [pausedScrape, hsleep]⟩
      obtain rfl : j = 0 := by omega
      exact hbefore 0 hj
    · have hpaused : ∀ j ≤ i, pausedScrape a w j = w.scrape j := fun j hj => by
        unfold pausedScrape
        split_ifs with hzero
        · rfl
        · rw [hpause.resolve_left (by omega)]
      refine ⟨i, hi, fun j hj => ?_, (hpaused i le_rfl).trans hscrape⟩
      rw [hpaused j hj.le]
      exact hbefore j hj

theorem collectMetricsFiles_not_escapes {e : Escape} :
    collectMetricsFiles a w ≠ .error (.escapes e) := by
  unfold collectMetricsFiles
  cases a.metricsFiles.mapM w.snapshot <;> simp [Except.mapError]

/-- **When an exception of the scrapes or of the pauses is not caught.** -/
theorem serverEscapes_iff {e : Escape} :
    ServerEscapes a w e ↔ ∃ explicit, snapshots a w = some (explicit, .error (.escapes e)) := by
  rw [ServerEscapes, ← collectHttpSnapshots_escapes]
  unfold snapshots
  by_cases hfiles : a.metricsFiles = []
  · by_cases hlog : a.logFile = none
    · simp [hfiles, hlog]
    · simp [hfiles, hlog]
  · simp [hfiles, collectMetricsFiles_not_escapes]

/-- What is collected are the verdicts on the series. -/
def Gathered.Judges (g : Gathered P) (a : Args P) (series : List (List ℚ)) : Prop :=
  List.Forall₂ (fun r values => r.Judges a values) g.analyses series

theorem metricsStage_spec (h : Valid a) :
    (∃ e, ServerEscapes a w e ∧ metricsStage a w = .error e) ∨
      (∀ e, ¬ServerEscapes a w e) ∧
        ∃ g, metricsStage a w = .ok g ∧ g.Judges a (metricsSeries a w).toList ∧
          (g.errors = [] ↔ ¬(a.metricsFiles ≠ [] ∧ metricsSeries a w = none)) := by
  simp only [serverEscapes_iff]
  unfold metricsStage metricsSeries
  cases hs : snapshots a w with
  | none => exact .inr ⟨by simp, {}, rfl, .nil, by simp [snapshots_none hs]⟩
  | some s =>
    obtain ⟨explicit, r⟩ := s
    have hexplicit := snapshots_some hs
    rcases r with (text | e) | snapshots
    · refine .inr ⟨by simp, ?_⟩
      cases explicit with
      | true => exact ⟨_, rfl, .nil, by simp [hexplicit.mp rfl, Except.toOption]⟩
      | false =>
        have hfiles : a.metricsFiles = [] := by simpa using hexplicit
        exact ⟨_, rfl, .nil, by simp [hfiles]⟩
    · exact .inl ⟨e, ⟨explicit, rfl⟩, rfl⟩
    · obtain ⟨r, hr, hjudges⟩ := analyzeMetricsSnapshots_judges h snapshots
      simp only [hr]
      exact .inr ⟨by simp, _, rfl, .cons hjudges .nil, by simp [Except.toOption]⟩

theorem useLog_iff {g : Gathered P} (hg : g.Judges a (metricsSeries a w).toList) :
    useLog a g = true ↔ WantsLog a w := by
  unfold Gathered.Judges at hg
  unfold useLog WantsLog
  cases hm : metricsSeries a w with
  | none =>
    rw [hm] at hg
    have hnil : g.analyses = [] := List.forall₂_nil_right_iff.mp hg
    simp [hnil]
  | some values =>
    rw [hm] at hg
    obtain ⟨r, rs, hr, hrs, heq⟩ := List.forall₂_cons_right_iff.mp hg
    have hnil : rs = [] := List.forall₂_nil_right_iff.mp hrs
    simp [heq, hnil, hr.status]

theorem logPath_eq (h : WantsLog a w) : logPath a w = some (consultedLog a w) := by
  unfold logPath consultedLog
  cases hlog : a.logFile with
  | some path => rfl
  | none =>
    have hfiles : a.metricsFiles = [] := (h.resolve_left (by simp [hlog])).1
    simp [hfiles]

theorem readTail_series (path : P) (hpath : path = consultedLog a w) :
    (∃ e, readTail w.block (w.content path) a.tailLines = .error e ∧ logSeries a w = none) ∨
      ∃ lines, readTail w.block (w.content path) a.tailLines = .ok lines ∧
        logSeries a w = some (parseLogValues w.reader lines).1 := by
  unfold logSeries
  rw [← hpath]
  by_cases hlines : 1 ≤ a.tailLines
  · rw [if_pos hlines]
    cases hfile : w.content path with
    | none => exact .inl ⟨.cannotRead, by simp only [readTail, if_neg (not_lt.mpr hlines)], rfl⟩
    | some file => exact .inr ⟨_, readTail_eq w.block file hlines, rfl⟩
  · rw [if_neg hlines]
    exact .inl ⟨.tailLines, by simp only [readTail, if_pos (not_le.mp hlines)], rfl⟩

theorem logStage_spec (h : Valid a) {g : Gathered P}
    (hg : g.Judges a (metricsSeries a w).toList)
    (herrors : g.errors = [] ↔ ¬(a.metricsFiles ≠ [] ∧ metricsSeries a w = none)) :
    (WantsLog a w ∧ ∃ text, w.isFile (consultedLog a w) = .error text ∧
        logStage a w g = .error (.isFile text)) ∨
      ¬(WantsLog a w ∧ ∃ text, w.isFile (consultedLog a w) = .error text) ∧
        ∃ g' series, logStage a w g = .ok g' ∧ g'.Judges a series ∧
          (∀ values, values ∈ series ↔ Consulted a w values) ∧ (g'.errors = [] ↔ ¬Failed a w) := by
  have hmem (values : List ℚ) :
      values ∈ (metricsSeries a w).toList ↔ metricsSeries a w = some values := by
    rw [Option.mem_toList]
  by_cases hwant : WantsLog a w
  · have huse : useLog a g = true := (useLog_iff hg).mpr hwant
    simp only [logStage, logPath_eq hwant, huse, Bool.true_eq_false, if_false]
    rcases hfile : w.isFile (consultedLog a w) with text | found
    · exact .inl ⟨hwant, text, rfl, rfl⟩
    refine .inr ⟨by simp, ?_⟩
    cases found with
    | true =>
      rcases readTail_series (a := a) (w := w) _ rfl with ⟨e, he, hlog⟩ | ⟨lines, hlines, hlog⟩
      · simp only [he]
        refine ⟨_, _, rfl, hg, fun values => ?_, ?_⟩
        · simp [Consulted, hmem, hlog]
        · simp [Failed, hwant, hfile, hlog]
      · obtain ⟨r, hr, hjudges⟩ := analyzeLogLines_judges (w := w) h (consultedLog a w) lines
        simp only [hlines, hr]
        refine ⟨_, (metricsSeries a w).toList ++ [(parseLogValues w.reader lines).1], rfl,
          List.rel_append hg (.cons hjudges .nil), fun values => ?_, ?_⟩
        · simp [Consulted, hmem, hwant, hfile, hlog, eq_comm]
        · simp only [Failed, hwant, hfile, hlog]
          simpa using herrors
    | false =>
      have hconsulted (values : List ℚ) :
          values ∈ (metricsSeries a w).toList ↔ Consulted a w values := by
        simp [Consulted, hmem, hfile]
      by_cases hlog : a.logFile.isSome = true
      · simp only [if_pos hlog]
        exact ⟨_, _, rfl, hg, hconsulted, by simp [Failed, hwant, hfile, hlog]⟩
      · simp only [if_neg hlog]
        refine ⟨_, _, rfl, hg, hconsulted, ?_⟩
        simp only [Failed, hfile, hlog]
        simpa using herrors
  · have huse : useLog a g = false := Bool.eq_false_iff.mpr fun h => hwant ((useLog_iff hg).mp h)
    have hrun : logStage a w g = .ok g := by
      unfold logStage
      cases logPath a w with
      | none => rfl
      | some path => simp only [huse, if_true]
    refine .inr ⟨fun hnot => hwant hnot.1, g, _, hrun, hg, fun values => ?_, ?_⟩
    · simp [Consulted, hmem, hwant]
    · simp only [Failed, hwant, false_and, or_false]
      exact herrors

/-! ### The exit code -/

theorem Gathered.Judges.exists_status {g : Gathered P} {series : List (List ℚ)}
    (h : g.Judges a series) (status : Status) :
    (∃ r ∈ g.analyses, r.status = status) ↔ ∃ values ∈ series, judge a values = status := by
  unfold Gathered.Judges at h
  generalize g.analyses = rs at h ⊢
  induction h with
  | nil => simp
  | @cons r values rs vs hr _ ih => simp only [List.exists_mem_cons_iff, hr.status, ih]

theorem Gathered.Judges.shows {g : Gathered P} {series : List (List ℚ)} (h : g.Judges a series)
    {r : Record P}
    (hr : r ∈ g.analyses) : r.analysis.Shows r.status := by
  unfold Gathered.Judges at h
  generalize g.analyses = rs at h hr
  induction h with
  | nil => cases hr
  | @cons r' values rs vs hr' _ ih =>
    rcases List.mem_cons.mp hr with rfl | hr
    · exact hr'.shows
    · exact ih hr

/-- The numbers that are shown are those of a record with the status that is reported. -/
theorem primaryRecord_spec {analyses : List (Record P)} :
    (∀ r ∈ analyses, r.status = .degraded → ∃ r', primaryRecord analyses = some r' ∧ r' ∈ analyses ∧
      r'.status = .degraded) ∧
      ((∀ r ∈ analyses, r.status ≠ .degraded) → ∀ r ∈ analyses, r.status = .ok →
        ∃ r', primaryRecord analyses = some r' ∧ r' ∈ analyses ∧ r'.status = .ok) := by
  constructor
  · intro r hr hstatus
    cases hfind : analyses.find? (·.status = .degraded) with
    | none => exact absurd hstatus (by simpa using List.find?_eq_none.mp hfind r hr)
    | some r' =>
      refine ⟨r', by simp [primaryRecord, hfind], List.mem_of_find?_eq_some hfind, ?_⟩
      simpa using List.find?_some hfind
  · intro hnone r hr hstatus
    have hdegraded : analyses.find? (·.status = .degraded) = none :=
      List.find?_eq_none.mpr fun r' hr' => by simpa using hnone r' hr'
    cases hfind : analyses.find? (·.status = .ok) with
    | none => exact absurd hstatus (by simpa using List.find?_eq_none.mp hfind r hr)
    | some r' =>
      refine ⟨r', by simp [primaryRecord, hdegraded, hfind], List.mem_of_find?_eq_some hfind, ?_⟩
      simpa using List.find?_some hfind

theorem result_shows (verdict : Verdict) (exitCode : ℕ) (source : List Source) {g : Gathered P}
    {r : Record P}
    (hr : primaryRecord g.analyses = some r) {status : Status} (h : r.analysis.Shows status) :
    let p := result a verdict exitCode source g
    (status = .degraded → ∃ recent cutoff, p.recentTokS = some recent ∧ p.cutoffTokS = some cutoff ∧
      recent ≤ cutoff) ∧
      (status = .ok → ∃ recent cutoff, p.recentTokS = some recent ∧ p.cutoffTokS = some cutoff ∧
        cutoff ≤ recent) := by
  intro p
  have hshown : (r.analysis.rounded).Shows status := h.map rfl rfl
  have hrecent : p.recentTokS =
    r.analysis.rounded.recent := by simp [p, result, hr, SeriesAnalysis.rounded]
  have hcutoff : p.cutoffTokS =
    r.analysis.rounded.cutoff := by simp [p, result, hr, SeriesAnalysis.rounded]
  rw [hrecent, hcutoff]
  exact hshown

/-- The four ends of `main`. -/
inductive Ends (a : Args P) (g : Gathered P) : Payload P → Prop where
  /-- An input has failed. -/
  | failed {p : Payload P} : g.errors ≠ [] → p.exitCode = 1 → Ends a g p
  /-- There is no usable series. -/
  | unusable {p : Payload P} : g.errors = [] → (¬∃ r ∈ g.analyses, r.status = .degraded) →
      (¬∃ r ∈ g.analyses, r.status = .ok) → p.exitCode = 1 → Ends a g p
  | degraded (source : List Source) : g.errors = [] → (∃ r ∈ g.analyses, r.status = .degraded) →
      Ends a g (result a .degraded 2 source g)
  | ok (source : List Source) : g.errors = [] → (¬∃ r ∈ g.analyses, r.status = .degraded) →
      (∃ r ∈ g.analyses, r.status = .ok) → Ends a g (result a .ok 0 source g)

theorem conclude_ends (g : Gathered P) : Ends a g (conclude a g) := by
  unfold conclude
  by_cases herrors : g.errors = []
  · rw [if_neg (not_not.mpr herrors)]
    by_cases hdegraded : ∃ r ∈ g.analyses, r.status = .degraded
    · obtain ⟨r, hr, hstatus⟩ := hdegraded
      have hmem : r ∈ g.analyses.filter fun r => r.status ≠ .insufficient := by simp [hr, hstatus]
      rw [if_neg (List.ne_nil_of_mem hmem),
        if_pos (List.any_eq_true.mpr ⟨r, hmem, by simp [hstatus]⟩)]
      exact .degraded _ herrors ⟨r, hr, hstatus⟩
    · have hany : ¬(g.analyses.filter fun r => r.status ≠ .insufficient).any
          (·.status = .degraded) = true := by
        intro hany
        obtain ⟨r, hr, hstatus⟩ := List.any_eq_true.mp hany
        exact hdegraded ⟨r, List.mem_of_mem_filter hr, by simpa using hstatus⟩
      by_cases hok : ∃ r ∈ g.analyses, r.status = .ok
      · obtain ⟨r, hr, hstatus⟩ := hok
        have hmem : r ∈ g.analyses.filter fun r => r.status ≠ .insufficient := by simp [hr, hstatus]
        rw [if_neg (List.ne_nil_of_mem hmem), if_neg hany]
        exact .ok _ herrors hdegraded ⟨r, hr, hstatus⟩
      · have hnil : (g.analyses.filter fun r => r.status ≠ .insufficient) = [] := by
          refine List.filter_eq_nil_iff.mpr fun r hr => ?_
          cases hstatus : r.status with
          | ok => exact absurd ⟨r, hr, hstatus⟩ hok
          | degraded => exact absurd ⟨r, hr, hstatus⟩ hdegraded
          | insufficient => simp
        rw [if_pos hnil]
        exact .unusable herrors hdegraded hok rfl
  · rw [if_pos herrors]
    exact .failed herrors rfl

/-- What a report says: the exit code goes by the statuses of the records, and the numbers go with
it. -/
theorem conclude_spec {g : Gathered P} {series : List (List ℚ)} (h : g.Judges a series) :
    let p := conclude a g
    (p.exitCode = 2 ↔ g.errors = [] ∧ ∃ values ∈ series, judge a values = .degraded) ∧
      (p.exitCode = 0 ↔ g.errors = [] ∧ (∀ values ∈ series, judge a values ≠ .degraded) ∧
        ∃ values ∈ series, judge a values = .ok) ∧
      p.exitCode ≤ 2 ∧
      (p.exitCode = 2 →
        ∃ recent cutoff, p.recentTokS = some recent ∧ p.cutoffTokS = some cutoff ∧
          recent ≤ cutoff) ∧
      (p.exitCode = 0 →
        ∃ recent cutoff, p.recentTokS = some recent ∧ p.cutoffTokS = some cutoff ∧
          cutoff ≤ recent) := by
  intro p
  have hdegraded := h.exists_status .degraded
  have hok := h.exists_status .ok
  have hnone : (∀ values ∈ series, judge a values ≠ .degraded) ↔
      ¬∃ values ∈ series, judge a values = .degraded := by
    simp
  rw [hnone, ← hdegraded, ← hok]
  have hends : Ends a g p := conclude_ends g
  clear_value p
  cases hends with
  | failed herrors hcode => simp [herrors, hcode]
  | unusable herrors hd ho hcode => simp [hd, ho, hcode]
  | degraded source herrors hd =>
    obtain ⟨r, hr, hstatus⟩ := hd
    obtain ⟨r', hprimary, hr', hstatus'⟩ := primaryRecord_spec.1 r hr hstatus
    have hshows := (result_shows (a := a) .degraded 2 source hprimary (h.shows hr')).1 hstatus'
    refine ⟨iff_of_true rfl ⟨herrors, r, hr, hstatus⟩, iff_of_false (by simp [result]) ?_, le_rfl,
      fun _ => hshows, ?_⟩
    · exact fun hnot => hnot.2.1 ⟨r, hr, hstatus⟩
    · exact fun hcode => absurd hcode (by simp [result])
  | ok source herrors hd ho =>
    obtain ⟨r, hr, hstatus⟩ := ho
    obtain ⟨r', hprimary, hr', hstatus'⟩ :=
      primaryRecord_spec.2 (fun r hr hs => hd ⟨r, hr, hs⟩) r hr hstatus
    have hshows := (result_shows (a := a) .ok 0 source hprimary (h.shows hr')).2 hstatus'
    refine ⟨iff_of_false (by simp [result]) ?_, iff_of_true rfl ⟨herrors, hd, r, hr, hstatus⟩,
      Nat.zero_le 2, ?_,
      fun _ => hshows⟩
    · exact fun hnot => hd hnot.2
    · exact fun hcode => absurd hcode (by simp [result])

/-- **What the exit code says.** `main` prints a usage error iff an argument fails its check.
Otherwise an exception leaves it exactly where the server, or a pause between its scrapes, raises
one that is no `WatchdogError`, or the look for the log that is consulted does. Where none does, it
reports, with 2 iff no input that was asked for has failed and a series that was consulted is
degraded, and with 0 iff none has failed, no series is degraded and one is healthy. The server is
asked where neither fixtures nor a log are given, and the default log only where the server says
nothing. The numbers of a report with 2 show a recent median at most the cutoff, and of one with 0
at least the cutoff, also rounded. -/
theorem main_verdict :
    (∃ text, checkArgs a = some text ∧ main a w = .ok (.usage text)) ∨
      checkArgs a = none ∧ (∃ e, Escapes a w e ∧ main a w = .error e) ∨
      checkArgs a = none ∧ (∀ e, ¬Escapes a w e) ∧ ∃ p, main a w = .ok (.report p) ∧
        (p.exitCode = 2 ↔
          ¬Failed a w ∧ ∃ values, Consulted a w values ∧ judge a values = .degraded) ∧
        (p.exitCode = 0 ↔
          ¬Failed a w ∧ (∀ values, Consulted a w values → judge a values ≠ .degraded) ∧
            ∃ values, Consulted a w values ∧ judge a values = .ok) ∧
        p.exitCode ≤ 2 ∧
        (p.exitCode = 2 → ∃ recent cutoff,
          p.recentTokS = some recent ∧ p.cutoffTokS = some cutoff ∧ recent ≤ cutoff) ∧
        (p.exitCode = 0 → ∃ recent cutoff,
          p.recentTokS = some recent ∧ p.cutoffTokS = some cutoff ∧ cutoff ≤ recent) := by
  cases hargs : checkArgs a with
  | some text => exact .inl ⟨text, rfl, by simp only [main, hargs]⟩
  | none =>
    have hvalid := valid_of_check hargs
    rcases metricsStage_spec (w := w) hvalid with ⟨e, he, hrun⟩ | ⟨hserver, g, hg, hjudges, herrors⟩
    · refine .inr (.inl ⟨rfl, e, .inl he, ?_⟩)
      simp only [main, hargs, hrun, Except.bind, bind]
    rcases logStage_spec hvalid hjudges herrors with
      ⟨hwant, text, htext, hrun⟩ | ⟨hlog, g', series, hg', hjudges', hmem, herrors'⟩
    · refine .inr (.inl ⟨rfl, _, .inr ⟨hserver, hwant, text, htext, rfl⟩, ?_⟩)
      simp only [main, hargs, hg, hrun, Except.bind, bind]
    have hrun : main a w = .ok (.report (conclude a g')) := by
      simp only [main, hargs, hg, Except.bind, bind, hg', pure, Except.pure]
    have hspec := conclude_spec hjudges'
    simp only [hmem, herrors'] at hspec
    refine .inr (.inr ⟨rfl, fun e he => ?_, _, hrun, hspec⟩)
    rcases he with he | ⟨-, hwant, text, htext, -⟩
    · exact hserver e he
    · exact hlog ⟨hwant, text, htext⟩

end Verdict

end Glm53Serve.Watchdog
