import Glm53Serve.BenchAb.RunArm
import Glm53Serve.Lib.Redaction
import Glm53Serve.Py.Json

/-!
# What is kept of a benchmark's output

`_run_process` of `bench-ab.py` runs a benchmark and keeps its output: all of it in a log file, and
the tails of `stdout` and `stderr` in the record of the arm. `redact_text` replaces the secrets in
what is kept. The log is redacted as a whole; the tails are cut first and redacted afterwards.

## The model

The run of the process is its command line, its outcome, and the printed forms of its duration and
of the time limit. The duration and the path of the log that the record also has are left out, and
the secrets are any list of texts.

## What is proved

* `redactText_absent` — a redacted text has none of the secrets.
* `tailSafe_of_not_cut`, `not_cut_of_suffix` — a tail is safe where its cut does not fall inside of
  a secret, and, where no secret ends another, only there.
* `runProcess_tails` — the same of the tails of a run. A run whose tail begins with the rest of a
  secret is `cutRun`.
-/

namespace Glm53Serve.BenchAb

open Py Redaction

/-! ### Redacting -/

/-- `"<redacted>"`. -/
def marker : Text := "<redacted>".toList

/-- `redact_text`. -/
def redactText (text : Text) (secrets : List Text) : Text :=
  secrets.foldl (fun text secret => if secret ≠ [] then
    replaceAll secret marker text else text) text

/-! ### The process -/

/-- How `subprocess.run` ends. -/
inductive Completed where
  /-- `completed.returncode`, `completed.stdout` and `completed.stderr`. -/
  | returned (returncode : ℤ) (stdout stderr : Option Text)
  /-- `exc.stdout` and `exc.stderr` of `TimeoutExpired`, where they are `str`. -/
  | timeoutExpired (stdout stderr : Option Text)

/-- A run of a benchmark. -/
structure Run where
  /-- `shlex.join(list(argv))`. -/
  command : Text
  completed : Completed
  /-- `f"{duration:.3f}"`. -/
  duration : Text
  /-- `f"{timeout:.0f}"`. -/
  timeout : Text

namespace Run

variable (run : Run)

def exitCode : ℤ :=
  match run.completed with
  | .returned returncode _ _ => returncode
  | .timeoutExpired _ _ => 124

def stdout : Text :=
  match run.completed with
  | .returned _ stdout _ => stdout.getD []
  | .timeoutExpired stdout _ => stdout.getD []

def stderr : Text :=
  match run.completed with
  | .returned _ _ stderr => stderr.getD []
  | .timeoutExpired _ stderr =>
    stderr.getD [] ++ "\n[bench-ab] benchmark exceeded ".toList ++
      run.timeout ++ "s and was killed\n".toList

def logText : Text :=
  "$ ".toList ++ run.command ++ "\nexit_code=".toList ++
    Json.intText run.exitCode ++ " duration_s=".toList ++
    run.duration ++ "\n\n--- stdout ---\n".toList ++ run.stdout ++ "\n--- stderr ---\n".toList ++
    run.stderr ++
    "\n".toList

end Run

/-- What `_run_process` writes and returns. -/
structure ProcessRecord where
  exitCode : ℤ
  /-- The log file. -/
  log : Text
  stdoutTail : Text
  stderrTail : Text

/-- `t[-n:]`. -/
def lastChars (n : ℕ) (t : Text) : Text := t.drop (t.length - n)

/-- `_run_process`. -/
def runProcess (run : Run) (secrets : List Text) : ProcessRecord where
  exitCode := run.exitCode
  log := redactText run.logText secrets
  stdoutTail := redactText (lastChars 2000 run.stdout) secrets
  stderrTail := redactText (lastChars 4000 run.stderr) secrets

/-! ### Tails -/

/-- The `n`-th letter is inside of an occurrence of `s`, from the `m`-th letter on, that
`redact_text` replaces. -/
def InsideSecret (secrets : List Text) (text s : Text) (m n : ℕ) : Prop :=
  Inside (hideAll secrets (plain text)) s m n

/-- The tail of the text from the `cut`-th letter on keeps the secrets. -/
structure TailSafe (secrets : List Text) (text : Text) (cut : ℕ) (tail : Text) : Prop where
  suffix : tail <:+ redactText text secrets
  absent : ∀ s ∈ secrets, ¬s <:+: tail
  /-- The tail does not begin with what the cut leaves of a secret. -/
  remainder : ∀ s m, InsideSecret secrets text s m cut → ¬s.drop (cut - m) <+: tail

section

variable {secrets : List Text} (hne : ∀ s ∈ secrets, s ≠ [])
    (hmark : ∀ s ∈ secrets, ∀ c ∈ s, c ∉ marker)

theorem marker_ne_nil : marker ≠ [] := by decide

include hne hmark

theorem redactText_eq (text : Text) : redactText text secrets =
    shown marker (hideAll secrets (plain text)) := by
  rw [shown_hideAll marker_ne_nil hne hmark, shown_plain, redactText]
  refine List.foldl_ext _ _ _ fun text s hs => ?_
  rw [if_pos (hne s hs)]

/-- A redacted text has none of the secrets. -/
theorem redactText_absent (text : Text) {s : Text} (hs : s ∈ secrets) :
    ¬s <:+: redactText text secrets := by
  rw [redactText_eq hne hmark]
  exact not_infix_shown marker_ne_nil hne hmark _ hs

/-- A tail is safe where its cut does not fall inside of a secret. -/
theorem tailSafe_of_not_cut {text : Text} {cut : ℕ} (hcut : cut ≤ text.length)
    (h : ∀ s m, ¬InsideSecret secrets text s m cut) :
    TailSafe secrets text cut (redactText (text.drop cut) secrets) where
  suffix := by
    have hlen : cut ≤ (source (hideAll secrets (plain text))).length := by
      rwa [source_hideAll hne, source_plain]
    have hb : Boundary (hideAll secrets (plain text)) cut := by
      rcases boundary_or_inside hlen with hb | ⟨s, m, hinside⟩
      · exact hb
      · exact absurd hinside (h s m)
    have hsplit : plain text = plain (text.take cut) ++ plain (text.drop cut) := by
      rw [plain, plain, plain, ← List.map_append, List.take_append_drop]
    have hsource : (source (plain (text.take cut))).length = cut := by
      rw [source_plain, List.length_take, Nat.min_eq_left hcut]
    rw [hsplit] at hb
    rw [redactText_eq hne hmark, redactText_eq hne hmark text, hsplit,
      hideAll_append hne (by rwa [hsource]), shown_append]
    exact List.suffix_append _ _
  absent _ hs := redactText_absent hne hmark _ hs
  remainder s m hinside := absurd hinside (h s m)

/-- Where no secret ends another, a tail that ends the redacted text is not cut inside of a secret.
-/
theorem not_cut_of_suffix (hends : ∀ s ∈ secrets, ∀ s' ∈ secrets, s <:+ s' → s = s')
    {text : Text} {cut : ℕ}
    (hcut : cut ≤ text.length) (h : redactText (text.drop cut) secrets <:+ redactText text secrets)
    (s : Text) (m : ℕ) :
    ¬InsideSecret secrets text s m cut := by
  have hwords : ∀ text w, .hidden w ∈ hideAll secrets (plain text) → w ∈ secrets :=
      fun text w hw => by
    rcases mem_hideAll hne hw with hmem | hmem
    · exact hmem
    · obtain ⟨c, -, hc⟩ := List.mem_map.mp hmem
      exact absurd hc nofun
  rw [redactText_eq hne hmark, redactText_eq hne hmark text] at h
  have hsource : source (hideAll secrets (plain (text.drop cut))) <:+ source
      (hideAll secrets (plain text)) := by
    rw [source_hideAll hne, source_hideAll hne, source_plain, source_plain]
    exact List.drop_suffix cut text
  obtain ⟨qs, hqs⟩ := suffix_of_shown marker_ne_nil hne hmark (fun v w hv hw => hends v hv w hw)
    (hwords (text.drop cut)) (hwords text) hsource h
  refine not_inside_of_boundary ⟨qs, _, hqs.symm, ?_⟩
  have hlen := congrArg (fun ps => (source ps).length) hqs
  simp only [source_append, List.length_append, source_hideAll hne, source_plain, List.length_drop]
    at hlen
  omega

end

/-- The tails of a run keep the secrets. -/
structure TailsSafe (secrets : List Text) (run : Run) : Prop where
  stdout : TailSafe secrets run.stdout (run.stdout.length - 2000)
    (runProcess run secrets).stdoutTail
  stderr : TailSafe secrets run.stderr (run.stderr.length - 4000)
    (runProcess run secrets).stderrTail

/-- Neither tail is cut inside of a secret. -/
structure NotCut (secrets : List Text) (run : Run) : Prop where
  stdout : ∀ s m, ¬InsideSecret secrets run.stdout s m (run.stdout.length - 2000)
  stderr : ∀ s m, ¬InsideSecret secrets run.stderr s m (run.stderr.length - 4000)

theorem ne_nil_of_four_le {s : Text} (h : 4 ≤ s.length) : s ≠ [] := by
  rintro rfl
  exact absurd h (by decide)

theorem notCut_of_tailsSafe {secrets : List Text} (hne : ∀ s ∈ secrets, s ≠ [])
    (hmark : ∀ s ∈ secrets, ∀ c ∈ s, c ∉ marker)
    (hends : ∀ s ∈ secrets, ∀ s' ∈ secrets, s <:+ s' → s = s')
    {run : Run} (h : TailsSafe secrets run) : NotCut secrets run :=
  ⟨not_cut_of_suffix hne hmark hends (Nat.sub_le _ _) h.stdout.suffix,
    not_cut_of_suffix hne hmark hends (Nat.sub_le _ _) h.stderr.suffix⟩

/-- The tails of a run keep the secrets where they are not cut inside of one. Where no secret ends
another, and so for a single secret, they keep them there alone. -/
theorem runProcess_tails {secrets : List Text} (hlen : ∀ s ∈ secrets, 4 ≤ s.length)
    (hmark : ∀ s ∈ secrets, ∀ c ∈ s, c ∉ marker) (run : Run) :
    (NotCut secrets run → TailsSafe secrets run) ∧
    ((∀ s ∈ secrets, ∀ s' ∈ secrets, s <:+ s' → s = s') →
      (TailsSafe secrets run ↔ NotCut secrets run)) := by
  have hne : ∀ s ∈ secrets, s ≠ [] := fun s hs => ne_nil_of_four_le (hlen s hs)
  have hsafe : NotCut secrets run → TailsSafe secrets run := fun h =>
    ⟨tailSafe_of_not_cut hne hmark (Nat.sub_le _ _) h.stdout,
      tailSafe_of_not_cut hne hmark (Nat.sub_le _ _) h.stderr⟩
  exact ⟨hsafe, fun hends => ⟨notCut_of_tailsSafe hne hmark hends, hsafe⟩⟩

def sampleSecret : Text := "k3y5".toList

theorem sampleSecret_ok : 4 ≤ sampleSecret.length ∧ ∀ c ∈ sampleSecret, c ∉ marker := by
  have hletters : sampleSecret.all (· ∉ marker) = true := by decide
  exact ⟨by decide, fun c hc => of_decide_eq_true (List.all_eq_true.mp hletters c hc)⟩

/-- A run whose output is one secret. -/
def secretRun : Run where
  command := "bench".toList
  completed := .returned 0 (some sampleSecret) none
  duration := "0.000".toList
  timeout := "60".toList

theorem runProcess_tails_secretRun : TailsSafe [sampleSecret] secretRun :=
  (runProcess_tails (List.forall_mem_singleton.mpr sampleSecret_ok.1)
    (List.forall_mem_singleton.mpr sampleSecret_ok.2)
    secretRun).1 ⟨by rintro s m ⟨-, -, -, -, hm, -⟩; exact Nat.not_lt_zero m hm,
      by rintro s m ⟨-, -, -, -, hm, -⟩; exact Nat.not_lt_zero m hm⟩

/-- A run that prints a secret and 1998 letters: its tail begins with the last two letters of the
secret. -/
def cutRun : Run where
  command := "bench".toList
  completed := .returned 0 (some (sampleSecret ++ List.replicate 1998 'x')) none
  duration := "0.000".toList
  timeout := "60".toList

theorem cutRun_stdout : cutRun.stdout = sampleSecret ++ List.replicate 1998 'x' := rfl

theorem cutRun_inside : InsideSecret [sampleSecret] cutRun.stdout sampleSecret 0
    (cutRun.stdout.length - 2000) := by
  have hne : sampleSecret ≠ [] := by decide
  have hplain : plain cutRun.stdout = plain sampleSecret ++ plain (List.replicate 1998 'x') := by
    rw [cutRun_stdout, plain, List.map_append]
    rfl
  rw [InsideSecret, hplain, cutRun_stdout, List.length_append, List.length_replicate]
  exact ⟨[], hide sampleSecret (plain (List.replicate 1998 'x')), hide_found hne _,
    rfl, by decide, by decide⟩

theorem runProcess_tails_cutRun : ¬∀ secret : Text, 4 ≤ secret.length → (∀ c ∈ secret, c ∉ marker) →
    ∀ run, TailsSafe [secret] run := by
  intro h
  have hne := ne_nil_of_four_le sampleSecret_ok.1
  have hends : ∀ s ∈ [sampleSecret], ∀ s' ∈ [sampleSecret], s <:+ s' → s = s' :=
      fun s hs s' hs' _ => by
    rw [List.mem_singleton.mp hs, List.mem_singleton.mp hs']
  exact (notCut_of_tailsSafe (List.forall_mem_singleton.mpr hne)
    (List.forall_mem_singleton.mpr sampleSecret_ok.2) hends
    (h sampleSecret sampleSecret_ok.1 sampleSecret_ok.2 cutRun)).stdout sampleSecret 0 cutRun_inside

end Glm53Serve.BenchAb
