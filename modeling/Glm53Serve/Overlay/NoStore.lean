import Glm53Serve.Lib.Run
import Glm53Serve.Overlay.NoStorePlan
import Mathlib.Logic.Function.Basic

/-!
# The no-store overlay

`patch_apc_no_store.py` patches three files of the server. `preflight` reads a file and returns its
patched text, or nothing if the file is complete, or refuses it. `main` checks all three before it
writes any, and writes each by way of a temporary file.

## The model

A file is the text that `read_text` returns, if there is one. Which texts `ast.parse` accepts is a
parameter. A run is the list of what it does to the disk, down to the letters that it writes to a
temporary file, so that it can stop anywhere: it is killed, or an exception in `atomic_write`
makes it remove its temporary file.

## What is proved

* `complete_of_applyEdits` — the replacements leave each other's snippets alone.
* `preflight_patched` — what `preflight` returns is complete, and is accepted as such.
* `file_stopped` — a run that stops has written some of the files, each at once.
* `main_transactional` — what a run and a stopped run leave, and what the next run does.
-/

namespace Glm53Serve.Overlay.NoStore

open Py Occurrences

/-! ### Checking a file -/

/-- What `preflight` raises `SystemExit` for. -/
inductive Refusal where
  /-- `missing {path}`. -/
  | missing (x : Target)
  /-- The file carries marks, but not all of the overlay: how many of how many, and what lacks. -/
  | partly (x : Target) (carries : ℕ) (want : ℤ) (lacking : List String)
  /-- `prerequisite {needle} not unique`. -/
  | prerequisite (x : Target) (needle : Text)
  /-- `expected one {label} target, found {n}`. -/
  | found (x : Target) (label : String) (n : ℕ)
  /-- `internal error, marker count after apply`. -/
  | internal (x : Target)
  /-- `does not parse`. -/
  | syntaxError (x : Target)

/-- The loop over the edits: each `old` has to occur once in its turn. -/
def applyEdits (x : Target) : List Change → Text → Except Refusal Text
  | [], t => .ok t
  | c :: cs, t =>
    if count t c.old = 1 then applyEdits x cs (replaceFirst c.old c.new t)
    else .error (.found x c.label (count t c.old))

variable (parses : Text → Bool)

/-- `_parses`, and what `preflight` returns then. -/
def parsed (x : Target) (t : Text) (r : Option Text) : Except Refusal (Option Text) :=
  if parses t then .ok r else .error (.syntaxError x)

/-- `preflight`: the patched text, or `none` if the file is complete. -/
def preflight (x : Target) : Option Text → Except Refusal (Option Text)
  | none => .error (.missing x)
  | some t =>
    let cs := (plan x).edits
    let lacking := (cs.filter fun c => count t c.new != 1).map Change.label
    if count t mark ≠ 0 then
      if (count t mark : ℤ) ≠ expectedMarks cs ∨ lacking ≠ [] then
        .error (.partly x (count t mark) (expectedMarks cs) lacking)
      else parsed parses x t none
    else
      match (plan x).requires.find? fun needle => count t needle != 1 with
      | some needle => .error (.prerequisite x needle)
      | none => do
        let t' ← applyEdits x cs t
        if (count t' mark : ℤ) ≠ expectedMarks cs then .error (.internal x)
        else parsed parses x t' (some t')

/-- `staged`: what is to be written, after all files are checked. -/
def stage (file : Target → Option Text) : List Target → Except Refusal (List (Target × Text))
  | [] => .ok []
  | x :: xs => do
    let patched ← preflight parses x (file x)
    let staged ← stage file xs
    return (patched.map (x, ·)).toList ++ staged

/-! ### Writing -/

/-- The targets, and the temporary files beside them, the newest first. -/
structure Disk where
  file : Target → Option Text
  temps : List Text

/-- What a run does to the disk. -/
inductive Action where
  /-- `tempfile.mkstemp`. -/
  | mkstemp
  /-- A letter of the text reaches the temporary file. -/
  | put (c : Char)
  /-- `os.replace(tmp, path)`. -/
  | replace (x : Target)

def act (d : Disk) : Action → Disk
  | .mkstemp => { d with temps := [] :: d.temps }
  | .put c =>
    match d.temps with
    | [] => d
    | tmp :: temps => { d with temps := (tmp ++ [c]) :: temps }
  | .replace x =>
    match d.temps with
    | [] => d
    | tmp :: temps => ⟨Function.update d.file x (some tmp), temps⟩

/-- `atomic_write`. -/
def atomicWrite (w : Target × Text) : List Action :=
  .mkstemp :: (w.2.map Action.put ++ [.replace w.1])

/-- What `main` does to a disk. -/
def actions (staged : List (Target × Text)) : List Action := staged.flatMap atomicWrite

/-- `main`: its exit, and the disk that it leaves. -/
def main (d : Disk) : Except Refusal Unit × Disk :=
  match stage parses d.file targets with
  | .error e => (.error e, d)
  | .ok staged => (.ok (), Run.run act d (actions staged))

/-- How a run ends before its time. -/
inductive Stop where
  /-- The process is killed. -/
  | killed
  /-- An exception in `atomic_write`: the temporary file is removed. -/
  | raised

/-- The disk that a run leaves that stops after `n` actions. -/
def stopped (stop : Stop) (n : ℕ) (d : Disk) : Disk :=
  match stage parses d.file targets with
  | .error _ => d
  | .ok staged =>
    let d' := Run.run act d ((actions staged).take n)
    match stop with
    | .killed => d'
    | .raised => { d' with temps := d'.temps.drop (d'.temps.length - d.temps.length) }

/-- Every snippet of the overlay is in the text, verbatim and once. -/
def Complete (x : Target) (t : Text) : Prop := ∀ c ∈ (plan x).edits, count t c.new = 1

/-- The file exists and is complete. -/
def Installed (x : Target) (file : Option Text) : Prop := ∃ t, file = some t ∧ Complete x t

/-! ### What `preflight` accepts -/

theorem mark_ne_nil : mark ≠ [] := by decide +kernel

namespace Change

variable (c : Change)

theorem edit_old : c.edit.old = c.old := (Edit.between_spec c.old c.new).1

theorem edit_new : c.edit.new = c.new := (Edit.between_spec c.old c.new).2

theorem edit_apply (t : Text) : c.edit.apply t = replaceFirst c.old c.new t := by
  rw [Edit.apply, edit_old, edit_new]

end Change

namespace FilePlan

variable (p : FilePlan)

theorem edits_ne_nil : p.edits ≠ [] := by
  have h := p.sound
  simp only [soundChanges, Bool.and_eq_true, Bool.not_eq_true', List.isEmpty_eq_false_iff] at h
  exact h.1.1

theorem mark_within {c : Change} (hc : c ∈ p.edits) : mark <:+: c.new := by
  have h := p.sound
  simp only [soundChanges, Bool.and_eq_true, List.all_eq_true] at h
  exact (isIn_iff mark_ne_nil).mp (h.1.2 c hc)

theorem new_ne_nil {c : Change} (hc : c ∈ p.edits) : c.new ≠ [] := by
  intro h
  have := p.mark_within hc
  rw [h, List.infix_nil] at this
  exact mark_ne_nil this

theorem putsOnce : Edit.putsOnce [] (p.edits.map Change.edit) = true := by
  have h := p.sound
  simp only [soundChanges, Bool.and_eq_true] at h
  exact h.2

/-- A text without the mark lacks every new text. -/
theorem occ_new_eq_zero {t : Text} (h : count t mark = 0) {c : Change} (hc : c ∈ p.edits) :
    occ c.new t = 0 := by
  rw [occ_eq_zero_iff (p.new_ne_nil hc)]
  intro hnew
  rw [count_eq_zero_iff, occ_eq_zero_iff mark_ne_nil] at h
  exact h ((p.mark_within hc).trans hnew)

end FilePlan

theorem applyEdits_eq_ok {x : Target} {cs : List Change} {t t' : Text}
    (h : applyEdits x cs t = .ok t') :
    Edit.Finds (cs.map Change.edit) t ∧ Edit.applyAll (cs.map Change.edit) t = t' := by
  induction cs generalizing t with
  | nil =>
    rw [applyEdits] at h
    exact ⟨trivial, Except.ok.inj h⟩
  | cons c cs ih =>
    rw [applyEdits] at h
    split_ifs at h with hc
    obtain ⟨hfinds, happly⟩ := ih h
    rw [← c.edit_apply] at hfinds happly
    refine ⟨⟨?_, hfinds⟩, happly⟩
    rw [c.edit_old]
    exact occ_pos_of_count hc

/-- The replacements leave each other's snippets alone. -/
theorem complete_of_applyEdits {x : Target} {t t' : Text} (h0 : count t mark = 0)
    (h : applyEdits x (plan x).edits t = .ok t') : Complete x t' := by
  obtain ⟨hfinds, rfl⟩ := applyEdits_eq_ok h
  intro c hc
  refine count_of_occ_one ?_
  rw [← c.edit_new]
  have habsent : ∀ e ∈ (plan x).edits.map Change.edit, occ e.new t = 0 := by
    rw [List.forall_mem_map]
    intro c' hc'
    rw [c'.edit_new]
    exact (plan x).occ_new_eq_zero h0 hc'
  exact Edit.occ_new_applyAll hfinds (plan x).putsOnce habsent c.edit (List.mem_map_of_mem hc)

theorem count_mark_ne_zero {x : Target} {t : Text} (h : Complete x t) : count t mark ≠ 0 := by
  obtain ⟨c, hc⟩ := List.exists_mem_of_ne_nil _ (plan x).edits_ne_nil
  have hnew : c.new <:+: t := by
    rw [← occ_pos_iff ((plan x).new_ne_nil hc)]
    exact Nat.pos_of_ne_zero (occ_pos_of_count (h c hc))
  rw [Ne, count_eq_zero_iff, occ_eq_zero_iff mark_ne_nil, not_not]
  exact ((plan x).mark_within hc).trans hnew

variable {parses}

theorem parsed_eq_ok {x : Target} {t : Text} {r r' : Option Text} :
    parsed parses x t r = .ok r' ↔ parses t = true ∧ r = r' := by
  rw [parsed]
  split_ifs with h
  · simp [h]
  · simp [h]

/-- A complete file is accepted. -/
theorem preflight_of_complete {x : Target} {t : Text} (h : Complete x t)
    (hmarks : (count t mark : ℤ) = expectedMarks (plan x).edits) (hparses : parses t = true) :
    preflight parses x (some t) = .ok none := by
  have hlacking : ((plan x).edits.filter fun c => count t c.new != 1) = [] := by
    rw [List.filter_eq_nil_iff]
    intro c hc
    simp [h c hc]
  rw [preflight]
  simp only [hlacking]
  rw [if_pos (count_mark_ne_zero h), if_neg (by simp [hmarks]), parsed_eq_ok]
  exact ⟨hparses, rfl⟩

/-- What `preflight` accepts: a complete file, or one without the mark that it can patch. -/
theorem preflight_cases {x : Target} {file r : Option Text}
    (h : preflight parses x file = .ok r) :
    ∃ t, file = some t ∧
      (r = none ∧ Complete x t ∨
        ∃ t', r = some t' ∧ Complete x t' ∧ (count t' mark : ℤ) = expectedMarks (plan x).edits ∧
          parses t' = true) := by
  cases file with
  | none => cases h
  | some t =>
    refine ⟨t, rfl, ?_⟩
    rw [preflight] at h
    split_ifs at h with hmark hlack
    · rw [not_or, not_not, not_not, List.map_eq_nil_iff, List.filter_eq_nil_iff] at hlack
      refine .inl ⟨(parsed_eq_ok.mp h).2.symm, fun c hc => ?_⟩
      simpa using hlack.2 c hc
    · rw [not_not] at hmark
      split at h
      · cases h
      · cases happly : applyEdits x (plan x).edits t with
        | error e => rw [happly] at h; cases h
        | ok t' =>
          simp only [happly, bind, Except.bind] at h
          split_ifs at h with hmarks
          obtain ⟨hparses, heq⟩ := parsed_eq_ok.mp h
          exact .inr ⟨t', heq.symm, complete_of_applyEdits hmark happly, not_not.mp hmarks, hparses⟩

theorem preflight_none {x : Target} {file : Option Text} (h : preflight parses x file = .ok none) :
    Installed x file := by
  obtain ⟨t, rfl, ⟨-, hcomplete⟩ | ⟨t', heq, -⟩⟩ := preflight_cases h
  · exact ⟨t, rfl, hcomplete⟩
  · cases heq

/-- What `preflight` returns is complete, and is accepted as such. -/
theorem preflight_patched {x : Target} {file : Option Text} {t : Text}
    (h : preflight parses x file = .ok (some t)) :
    Complete x t ∧ preflight parses x (some t) = .ok none := by
  obtain ⟨-, -, ⟨heq, -⟩ | ⟨t', heq, hcomplete, hmarks, hparses⟩⟩ := preflight_cases h
  · cases heq
  · cases heq
    exact ⟨hcomplete, preflight_of_complete hcomplete hmarks hparses⟩

/-! ### What a file is at the end -/

/-- The file after a run that accepts it. -/
def settled (parses : Text → Bool) (x : Target) (file : Option Text) : Option Text :=
  match preflight parses x file with
  | .ok (some t) => some t
  | _ => file

/-- `preflight` does not refuse the file. -/
def Accepted (parses : Text → Bool) (x : Target) (file : Option Text) : Prop :=
  ∃ r, preflight parses x file = .ok r

theorem settled_of_none {x : Target} {file : Option Text} (h : preflight parses x file = .ok none) :
    settled parses x file = file := by
  rw [settled, h]

theorem settled_of_some {x : Target} {file : Option Text} {t : Text}
    (h : preflight parses x file = .ok (some t)) : settled parses x file = some t := by
  rw [settled, h]

theorem preflight_settled {x : Target} {file : Option Text} (h : Accepted parses x file) :
    preflight parses x (settled parses x file) = .ok none := by
  obtain ⟨r, hr⟩ := h
  cases r with
  | none => rw [settled_of_none hr, hr]
  | some t => rw [settled_of_some hr, (preflight_patched hr).2]

theorem installed_settled {x : Target} {file : Option Text} (h : Accepted parses x file) :
    Installed x (settled parses x file) :=
  preflight_none (preflight_settled h)

/-! ### What is staged -/

/-- What is written of a file that is accepted. -/
def patch (parses : Text → Bool) (file : Target → Option Text) (x : Target) :
    Option (Target × Text) :=
  match preflight parses x (file x) with
  | .ok (some t) => some (x, t)
  | _ => none

theorem stage_of_accepted {file : Target → Option Text} {xs : List Target}
    (h : ∀ x ∈ xs, Accepted parses x (file x)) :
    stage parses file xs = .ok (xs.filterMap (patch parses file)) := by
  induction xs with
  | nil => rfl
  | cons x xs ih =>
    obtain ⟨r, hr⟩ := h x List.mem_cons_self
    rw [stage, hr, ih fun y hy => h y (List.mem_cons_of_mem x hy), List.filterMap_cons, patch, hr]
    cases r with
    | none => rfl
    | some t => rfl

theorem accepted_of_stage {file : Target → Option Text} {xs : List Target}
    {staged : List (Target × Text)} (h : stage parses file xs = .ok staged) :
    ∀ x ∈ xs, Accepted parses x (file x) := by
  induction xs generalizing staged with
  | nil => exact fun x hx => absurd hx List.not_mem_nil
  | cons x xs ih =>
    rw [stage] at h
    cases hx : preflight parses x (file x) with
    | error e => rw [hx] at h; cases h
    | ok r =>
      cases hrest : stage parses file xs with
      | error e => rw [hx, hrest] at h; cases h
      | ok rest => exact List.forall_mem_cons.mpr ⟨⟨r, hx⟩, ih hrest⟩

/-- Every file is accepted. -/
def Acceptable (parses : Text → Bool) (d : Disk) : Prop := ∀ x, Accepted parses x (d.file x)

/-- What a run on an acceptable disk writes. -/
def writes (parses : Text → Bool) (d : Disk) : List (Target × Text) :=
  targets.filterMap (patch parses d.file)

theorem stage_targets {d : Disk} (h : Acceptable parses d) :
    stage parses d.file targets = .ok (writes parses d) :=
  stage_of_accepted fun x _ => h x

theorem main_of_acceptable {d : Disk} (h : Acceptable parses d) :
    main parses d = (.ok (), Run.run act d (actions (writes parses d))) := by
  rw [main, stage_targets h]

/-- A run ends with an error and does nothing, or the disk is acceptable. -/
theorem main_cases (d : Disk) :
    (∃ e, main parses d = (.error e, d) ∧ ∀ stop n, stopped parses stop n d = d) ∨
      Acceptable parses d := by
  cases h : stage parses d.file targets with
  | error e =>
    refine .inl ⟨e, by rw [main, h], fun stop n => ?_⟩
    rw [stopped, h]
  | ok staged => exact .inr fun x => accepted_of_stage h x (mem_targets x)

theorem mem_writes {d : Disk} {w : Target × Text} (hw : w ∈ writes parses d) :
    settled parses w.1 (d.file w.1) = some w.2 := by
  obtain ⟨x, -, hx⟩ := List.mem_filterMap.mp hw
  rw [patch] at hx
  split at hx
  · next t ht =>
    cases hx
    exact settled_of_some ht
  · cases hx

/-- A file that is not written is settled. -/
theorem settled_of_not_written {d : Disk} {x : Target} (hx : x ∉ (writes parses d).map (·.1)) :
    settled parses x (d.file x) = d.file x := by
  rw [settled]
  split
  · next t ht =>
    refine absurd (List.mem_map.mpr ⟨(x, t), List.mem_filterMap.mpr ⟨x, mem_targets x, ?_⟩, rfl⟩) hx
    rw [patch, ht]
  · rfl

/-! ### What the writing does to the files -/

/-- The files with some of them replaced. -/
def replaced (file : Target → Option Text) (ws : List (Target × Text)) : Target → Option Text :=
  ws.foldl (fun file w => Function.update file w.1 (some w.2)) file

theorem run_put (d : Disk) (tmp t : Text) (temps : List Text) :
    Run.run act ⟨d.file, tmp :: temps⟩ (t.map Action.put) = ⟨d.file, (tmp ++ t) :: temps⟩ := by
  induction t generalizing tmp with
  | nil => rw [List.append_nil]; rfl
  | cons c t ih =>
    rw [List.map_cons, Run.run_cons]
    have hact : act ⟨d.file, tmp :: temps⟩ (.put c) = ⟨d.file, (tmp ++ [c]) :: temps⟩ := rfl
    rw [hact, ih, List.append_assoc]
    rfl

/-- `atomic_write` replaces the file by the whole text. -/
theorem run_atomicWrite (d : Disk) (w : Target × Text) :
    Run.run act d (atomicWrite w) = ⟨Function.update d.file w.1 (some w.2), d.temps⟩ := by
  rw [atomicWrite, Run.run_cons, Run.run_append]
  have hact : act d .mkstemp = ⟨d.file, [] :: d.temps⟩ := rfl
  rw [hact, run_put]
  rfl

theorem file_act {d : Disk} {a : Action} (h : ∀ x, a ≠ .replace x) : (act d a).file = d.file := by
  cases a with
  | mkstemp => rfl
  | put c => cases hd : d.temps <;> simp [act, hd]
  | replace x => exact absurd rfl (h x)

theorem file_run {d : Disk} {as : List Action} (h : ∀ a ∈ as, ∀ x, a ≠ .replace x) :
    (Run.run act d as).file = d.file := by
  induction as generalizing d with
  | nil => rfl
  | cons a as ih =>
    rw [Run.run_cons, ih fun b hb => h b (List.mem_cons_of_mem a hb),
      file_act (h a List.mem_cons_self)]

/-- Until its last step `atomic_write` changes no file. -/
theorem file_run_take {d : Disk} {w : Target × Text} {n : ℕ} (hn : n < (atomicWrite w).length) :
    (Run.run act d ((atomicWrite w).take n)).file = d.file := by
  have hsplit : atomicWrite w = (.mkstemp :: w.2.map Action.put) ++ [.replace w.1] := rfl
  rw [hsplit, List.length_append, List.length_singleton] at hn
  rw [hsplit, List.take_append_of_le_length (by omega)]
  refine file_run fun a ha x => ?_
  rintro rfl
  simpa using List.mem_of_mem_take ha

theorem run_actions (d : Disk) (ws : List (Target × Text)) :
    Run.run act d (actions ws) = ⟨replaced d.file ws, d.temps⟩ := by
  induction ws generalizing d with
  | nil => rfl
  | cons w ws ih =>
    rw [actions, List.flatMap_cons, Run.run_append, run_atomicWrite]
    exact ih _

/-- A run that stops has replaced the first of the files. -/
theorem file_run_take_actions (d : Disk) (ws : List (Target × Text)) (n : ℕ) :
    ∃ k, (Run.run act d ((actions ws).take n)).file = replaced d.file (ws.take k) := by
  induction ws generalizing d n with
  | nil =>
    refine ⟨0, ?_⟩
    rw [actions, List.flatMap_nil, List.take_nil]
    rfl
  | cons w ws ih =>
    rw [actions, List.flatMap_cons]
    rcases Nat.lt_or_ge n (atomicWrite w).length with hn | hn
    · refine ⟨0, ?_⟩
      rw [List.take_append_of_le_length hn.le, file_run_take hn]
      rfl
    · obtain ⟨k, hk⟩ := ih (Run.run act d (atomicWrite w)) (n - (atomicWrite w).length)
      refine ⟨k + 1, ?_⟩
      rw [List.take_append, List.take_of_length_le hn, Run.run_append]
      rw [actions] at hk
      rw [hk, run_atomicWrite]
      rfl

theorem replaced_apply {g : Target → Option Text} {ws : List (Target × Text)}
    (h : ∀ w ∈ ws, g w.1 = some w.2) (file : Target → Option Text) (x : Target) :
    replaced file ws x = if x ∈ ws.map (·.1) then g x else file x := by
  induction ws generalizing file with
  | nil => rfl
  | cons w ws ih =>
    have hrest := ih (fun v hv => h v (List.mem_cons_of_mem w hv))
      (Function.update file w.1 (some w.2))
    have hstep : replaced file (w :: ws) = replaced (Function.update file w.1 (some w.2)) ws := rfl
    rw [hstep, hrest, List.map_cons]
    by_cases hws : x ∈ ws.map (·.1)
    · rw [if_pos hws, if_pos (List.mem_cons_of_mem _ hws)]
    · rw [if_neg hws]
      by_cases hx : x = w.1
      · subst hx
        rw [Function.update_self, if_pos List.mem_cons_self, h w List.mem_cons_self]
      · rw [Function.update_of_ne hx, if_neg fun hmem => (List.mem_cons.mp hmem).elim hx hws]

/-- After a run that stops, each file is as it was or settled. -/
theorem file_stopped {d : Disk} (h : Acceptable parses d) (stop : Stop) (n : ℕ) :
    ∃ written : List Target, ∀ x, (stopped parses stop n d).file x =
      if x ∈ written then settled parses x (d.file x) else d.file x := by
  obtain ⟨k, hk⟩ := file_run_take_actions d (writes parses d) n
  refine ⟨((writes parses d).take k).map (·.1), fun x => ?_⟩
  have hfile : (stopped parses stop n d).file = replaced d.file ((writes parses d).take k) := by
    rw [← hk, stopped, stage_targets h]
    cases stop with
    | killed => rfl
    | raised => rfl
  rw [hfile]
  exact replaced_apply (g := fun x => settled parses x (d.file x))
    (fun w hw => mem_writes (List.mem_of_mem_take hw)) d.file x

/-- After a run, each file is settled. -/
theorem main_eq {d : Disk} (h : Acceptable parses d) :
    main parses d = (.ok (), ⟨fun x => settled parses x (d.file x), d.temps⟩) := by
  rw [main_of_acceptable h, run_actions]
  congr 2
  funext x
  rw [replaced_apply (g := fun x => settled parses x (d.file x)) (fun w hw => mem_writes hw)]
  split_ifs with hx
  · rfl
  · exact (settled_of_not_written hx).symm

/-! ### The overlay -/

/-- A run on the disk is transactional, and what it leaves converges. -/
structure Transactional (parses : Text → Bool) (d : Disk) : Prop where
  /-- An error leaves the files alone. -/
  refused : ∀ e, (main parses d).1 = .error e → (main parses d).2.file = d.file
  /-- Otherwise every file is complete. -/
  complete : (main parses d).1 = .ok () → ∀ x, Installed x ((main parses d).2.file x)
  /-- A run that stops leaves each file as it was or complete. -/
  atomic : ∀ stop n x, (stopped parses stop n d).file x = d.file x ∨
    Installed x ((stopped parses stop n d).file x)
  /-- The next run completes what a stopped one has left. -/
  resumes : (main parses d).1 = .ok () → ∀ stop n,
    (main parses (stopped parses stop n d)).1 = .ok () ∧
      (main parses (stopped parses stop n d)).2.file = (main parses d).2.file
  /-- After a success the next run changes nothing. -/
  converged : (main parses d).1 = .ok () →
    main parses (main parses d).2 = (.ok (), (main parses d).2)

theorem acceptable_stopped {d : Disk} (h : Acceptable parses d) (stop : Stop) (n : ℕ) :
    Acceptable parses (stopped parses stop n d) := by
  obtain ⟨written, hfile⟩ := file_stopped h stop n
  intro x
  rw [hfile]
  split_ifs
  · exact ⟨none, preflight_settled (h x)⟩
  · exact h x

/-- What a stopped run has done, the next one need not do again. -/
theorem settled_stopped {d : Disk} (h : Acceptable parses d) (stop : Stop) (n : ℕ) (x : Target) :
    settled parses x ((stopped parses stop n d).file x) = settled parses x (d.file x) := by
  obtain ⟨written, hfile⟩ := file_stopped h stop n
  rw [hfile]
  split_ifs
  · exact settled_of_none (preflight_settled (h x))
  · rfl

/-- The overlay is transactional on every disk. -/
theorem main_transactional (parses : Text → Bool) (d : Disk) : Transactional parses d := by
  obtain ⟨e, hmain, hstopped⟩ | h := main_cases d
  · have hnot : (main parses d).1 ≠ .ok () := by
      rw [hmain]
      simp
    refine ⟨fun e' _ => by rw [hmain], fun hok => absurd hok hnot, fun stop n x => ?_,
      fun hok => absurd hok hnot, fun hok => absurd hok hnot⟩
    rw [hstopped]
    exact .inl rfl
  · have hsettled : Acceptable parses (main parses d).2 := by
      intro x
      rw [main_eq h]
      exact ⟨none, preflight_settled (h x)⟩
    refine ⟨fun e he => ?_, fun _ x => ?_, fun stop n x => ?_, fun _ stop n => ?_, fun _ => ?_⟩
    · rw [main_eq h] at he
      cases he
    · rw [main_eq h]
      exact installed_settled (h x)
    · obtain ⟨written, hfile⟩ := file_stopped h stop n
      rw [hfile]
      split_ifs
      · exact .inr (installed_settled (h x))
      · exact .inl rfl
    · rw [main_eq (acceptable_stopped h stop n), main_eq h]
      exact ⟨rfl, funext (settled_stopped h stop n)⟩
    · rw [main_eq hsettled, main_eq h]
      congr 2
      exact funext fun x => settled_of_none (preflight_settled (h x))

/-! ### Files that are patched -/

/-- What `preflight` checks of a text without the mark, but for its syntax. -/
def patchable (x : Target) (mark : Text) (edits : List Change) (requires : List Text)
    (source : Text) : Bool :=
  count source mark == 0 && requires.all (fun needle => count source needle == 1) &&
    match applyEdits x edits source with
    | .ok t => (count t mark : ℤ) == (edits.map fun c =>
        (count c.new mark : ℤ) - count c.old mark).sum
    | .error _ => false

def samplingParamsPatchable : List Text → Bool
  | [mark, fieldOld, fieldNew, anchor, helpers, postOld, postNew, logger] =>
    patchable .samplingParams mark
      (samplingParamsEdits fieldOld fieldNew anchor helpers postOld postNew)
      [logger] (logger ++ (anchor ++ (fieldOld ++ postOld)))
  | _ => false

def requestPatchable : List Text → Bool
  | [mark, resolveOld, resolveNew, methodOld, methodNew] =>
    patchable .request mark (requestEdits resolveOld resolveNew methodOld methodNew) []
      (resolveOld ++ methodOld)
  | _ => false

def blockPoolPatchable : List Text → Bool
  | [mark, anchor, helper, fullOld, fullNew, partialOld, partialNew, logger] =>
    patchable .blockPool mark (blockPoolEdits anchor helper fullOld fullNew partialOld partialNew)
      [logger] (logger ++ (anchor ++ (fullOld ++ partialOld)))
  | _ => false

set_option maxRecDepth 20000 in
theorem samplingParams_patchable :
    samplingParamsPatchable
      ([markLines, spFieldOld, spFieldNew, spClassAnchor, spHelpers, spPostOld,
      spPostNew, loggerLines].map joinLines) = true := by
  apply check_of_spelled samplingParamsPatchable
  · unfold markLines spFieldOld spFieldNew spClassAnchor spHelpers spKeys spParse spEnv spValidate
      spResolve spPostOld spPostNew loggerLines
    simp only [List.cons_append, List.nil_append]
    repeat (first
      | exact SpelledAll.nil | apply SpelledAll.cons | exact Spelled.nil | apply Spelled.cons)
  · decide +kernel

set_option maxRecDepth 20000 in
theorem request_patchable :
    requestPatchable ([markLines, reqResolveOld, reqResolveNew, reqMethodOld, reqMethodNew].map
      joinLines) = true := by
  apply check_of_spelled requestPatchable
  · unfold markLines reqResolveOld reqResolveNew reqMethodOld reqMethodNew
    repeat (first
      | exact SpelledAll.nil | apply SpelledAll.cons | exact Spelled.nil | apply Spelled.cons)
  · decide +kernel

set_option maxRecDepth 20000 in
theorem blockPool_patchable :
    blockPoolPatchable ([markLines, bpClassAnchor, bpHelper, bpFullOld, bpFullNew, bpPartialOld,
      bpPartialNew, loggerLines].map joinLines) = true := by
  apply check_of_spelled blockPoolPatchable
  · unfold markLines bpClassAnchor bpHelper bpFullOld bpFullNew bpPartialOld bpPartialNew
      loggerLines
    repeat (first
      | exact SpelledAll.nil | apply SpelledAll.cons | exact Spelled.nil | apply Spelled.cons)
  · decide +kernel

/-- A text that passes the checks is accepted, if what it becomes parses. -/
theorem accepted_of_patchable (hparses : ∀ t, parses t = true) {x : Target} {source : Text}
    (h : patchable x mark (plan x).edits (plan x).requires source = true) :
    Accepted parses x (some source) := by
  simp only [patchable, Bool.and_eq_true, beq_iff_eq] at h
  obtain ⟨⟨hmark, hrequires⟩, hedits⟩ := h
  split at hedits
  · next t hpatched =>
    have hfind : (plan x).requires.find? (fun needle => count source needle != 1) = none := by
      rw [List.find?_eq_none]
      intro needle hneedle
      simpa using List.all_eq_true.mp hrequires needle hneedle
    have hmarks : ¬(count t mark : ℤ) ≠ expectedMarks (plan x).edits :=
      not_not.mpr (beq_iff_eq.mp hedits)
    refine ⟨some t, ?_⟩
    rw [preflight]
    simp only [if_neg (not_not.mpr hmark), hfind, hpatched, bind, Except.bind, if_neg hmarks]
    exact parsed_eq_ok.mpr ⟨hparses t, rfl⟩
  · exact absurd hedits Bool.false_ne_true

/-- The files with nothing but what the edits look for. -/
def anchors : Target → Text
  | .samplingParams =>
    loggerLine ++ (joinLines spClassAnchor ++ (joinLines spFieldOld ++ joinLines spPostOld))
  | .request => joinLines reqResolveOld ++ joinLines reqMethodOld
  | .blockPool =>
    loggerLine ++ (joinLines bpClassAnchor ++ (joinLines bpFullOld ++ joinLines bpPartialOld))

theorem anchors_patchable (x : Target) :
    patchable x mark (plan x).edits (plan x).requires (anchors x) = true := by
  cases x with
  | samplingParams => exact samplingParams_patchable
  | request => exact request_patchable
  | blockPool => exact blockPool_patchable

theorem acceptable_anchors : Acceptable (fun _ => true) ⟨fun x => some (anchors x), []⟩ :=
  fun x => accepted_of_patchable (fun _ => rfl) (anchors_patchable x)

/-- A run on these files installs the overlay. -/
theorem main_transactional_anchors :
    (main (fun _ => true) ⟨fun x => some (anchors x), []⟩).1 = .ok () ∧
      ∀ x, Installed x ((main (fun _ => true) ⟨fun x => some (anchors x), []⟩).2.file x) := by
  have hok : (main (fun _ => true) ⟨fun x => some (anchors x), []⟩).1 = .ok () := by
    rw [main_of_acceptable acceptable_anchors]
  exact ⟨hok, (main_transactional _ _).complete hok⟩

end Glm53Serve.Overlay.NoStore
