import Glm53Serve.Py.Replace

/-!
# Installing the decode floor

`patch_scheduler_decode_floor.py` patches the scheduler: an import, a helper and two calls of it.

## The model

`main`, from the text of the file that it finds to the text that it leaves; `none` where it exits
with an error.

## What is proved

* `complete_main_iff` — when the file is complete after a success.
-/

namespace Glm53Serve.Overlay.DecodeFloor

open Py Occurrences

/-! ### The texts -/

/-- `MARK`. -/
def markLines : List String :=
  ["# [glm53-decode-floor]"]

/-- `IMPORT_OLD`. -/
def importOld : List String :=
  ["import itertools",
   "import time",
   ""]

/-- `IMPORT_NEW`. -/
def importNew : List String :=
  ["import itertools",
   "import os",
   "import time",
   ""]

/-- `HELPER` without the blank lines around it. -/
def helperCode : List String :=
  ["def _glm53_mixed_prefill_policy(running, current):",
   "    \"\"\"Mixed-step prefill policy when a peer in `running` is decoding.",
   "",
   "    None = no extra policy. 0 = skip this prefill this step. N>0 = cap.",
   "    \"\"\"",
   "    raw = os.environ.get(\"GLM53_MIXED_PREFILL_CHUNK\", \"skip\").strip().lower()",
   "    if raw in (\"0\", \"off\", \"no\"):",
   "        return None",
   "    if raw in (\"skip\", \"-1\"):",
   "        cap = 0",
   "    else:",
   "        try:",
   "            cap = int(raw)",
   "        except ValueError:",
   "            cap = 0",
   "        if cap <= 0:",
   "            return None",
   "    cur_id = getattr(current, \"request_id\", None)",
   "    for r in running:",
   "        if r is current or getattr(r, \"request_id\", None) == cur_id:",
   "            continue",
   "        if r.num_computed_tokens >= r.num_prompt_tokens:",
   "            return cap",
   "    return None"]

/-- `HELPER`. -/
def helper : List String := "" :: (helperCode ++ ["", "", ""])

/-- Where the helper is inserted. -/
def needle : List String :=
  ["from vllm.compilation.cuda_graph import CUDAGraphStat",
   ""]

/-- `RUNNING_OLD`. -/
def runningOld : List String :=
  ["            if 0 < self.scheduler_config.long_prefill_token_threshold < num_new_tokens:",
   "                num_new_tokens = self.scheduler_config.long_prefill_token_threshold",
   "            num_new_tokens = min(",
   "                num_new_tokens, token_budget, input_budget - draft_slots",
   "            )",
   "",
   "            # Make sure the input position does not exceed the max model len.",
   ""]

/-- `RUNNING_NEW`. -/
def runningNew : List String :=
  ["            if 0 < self.scheduler_config.long_prefill_token_threshold < num_new_tokens:",
   "                num_new_tokens = self.scheduler_config.long_prefill_token_threshold",
   "            num_new_tokens = min(",
   "                num_new_tokens, token_budget, input_budget - draft_slots",
   "            )",
   "            mixed_cap = _glm53_mixed_prefill_policy(self.running, request)  # [glm53-decode-floor]",
   "            if mixed_cap is not None and request.num_computed_tokens < request.num_prompt_tokens:",
   "                num_new_tokens = min(num_new_tokens, mixed_cap)",
   "",
   "            # Make sure the input position does not exceed the max model len.",
   ""]

/-- `WAITING_OLD`. -/
def waitingOld : List String :=
  ["                    threshold = self.scheduler_config.long_prefill_token_threshold",
   "                    if 0 < threshold < num_new_tokens:",
   "                        num_new_tokens = threshold",
   "",
   "                    # chunked prefill has to be enabled explicitly to allow",
   ""]

/-- `WAITING_NEW`. -/
def waitingNew : List String :=
  ["                    threshold = self.scheduler_config.long_prefill_token_threshold",
   "                    if 0 < threshold < num_new_tokens:",
   "                        num_new_tokens = threshold",
   "                    mixed_cap = _glm53_mixed_prefill_policy(self.running, request)  # [glm53-decode-floor]",
   "                    if mixed_cap is not None and num_computed_tokens < request.num_prompt_tokens:",
   "                        if mixed_cap <= 0:",
   "                            request_queue.pop_request()",
   "                            step_skipped_waiting.prepend_request(request)",
   "                            continue",
   "                        num_new_tokens = min(num_new_tokens, mixed_cap)",
   "",
   "                    # chunked prefill has to be enabled explicitly to allow",
   ""]

/-- What the installer looks for before it inserts the helper. -/
def guardLine : List String := ["def _glm53_mixed_prefill_policy("]

/-- `"import os\n"`. -/
def importOs : List String := ["import os", ""]

/-- `"import time\n"`. -/
def importTime : List String := ["import time", ""]

/-! ### The installer -/

/-- `MARK`. -/
def mark : Text := joinLines markLines

/-- The import, if it is not above `import time` already. -/
def withImport (t : Text) : Option Text :=
  if isIn (joinLines importOs) (splitHead (joinLines importTime) t) then some t
  else replaceOnce t (joinLines importOld) (joinLines importNew)

/-- The helper, if there is none of that name. -/
def withHelper (t : Text) : Option Text :=
  if isIn (joinLines guardLine) t then some t
  else replaceOnce t (joinLines needle) (joinLines helper ++ joinLines needle)

/-- `main`: the text that it leaves in the file when it exits with 0. -/
def main : Option Text → Option Text
  | none => none
  | some t =>
    if isIn mark t then some t
    else do
      let t ← withImport t
      let t ← withHelper t
      let t ← replaceOnce t (joinLines runningOld) (joinLines runningNew)
      replaceOnce t (joinLines waitingOld) (joinLines waitingNew)

/-- What the overlay puts into a file: the import, the helper and its two calls. -/
structure Complete (t : Text) : Prop where
  importOs : joinLines importOs <:+: t
  helper : joinLines helperCode <:+: t
  running : joinLines runningNew <:+: t
  waiting : joinLines waitingNew <:+: t

/-! ### The edits -/

def importEdit : Edit Char := Edit.between (joinLines importOld) (joinLines importNew)

def helperEdit : Edit Char := Edit.between (joinLines needle) (joinLines helper ++ joinLines needle)

def runningEdit : Edit Char := Edit.between (joinLines runningOld) (joinLines runningNew)

def waitingEdit : Edit Char := Edit.between (joinLines waitingOld) (joinLines waitingNew)

def texts : List (List String) :=
  [importOld, importNew, needle, helper, runningOld, runningNew, waitingOld, waitingNew, importOs,
    helperCode, guardLine]

/-- What the edits do to the texts of each other. -/
def editsSound : List Text → Bool
  | [importOld, importNew, needle, helper, runningOld, runningNew, waitingOld, waitingNew, importOs,
      helperCode, guardLine] =>
    let importEdit := Edit.between importOld importNew
    let helperEdit := Edit.between needle (helper ++ needle)
    let runningEdit := Edit.between runningOld runningNew
    let waitingEdit := Edit.between waitingOld waitingNew
    helperEdit.keeps importOs && [runningEdit, waitingEdit].all (Edit.keeps importOs) &&
      isIn importOs importNew &&
      importEdit.adds guardLine 0 && importEdit.adds helperCode 0 && isIn helperCode helper &&
      [runningEdit, waitingEdit].all (Edit.adds helperCode 0) &&
      Edit.keptInTurn [runningEdit, waitingEdit]
  | _ => false

set_option maxRecDepth 20000 in
theorem editsSound_texts : editsSound (texts.map joinLines) = true := by
  apply check_of_spelled editsSound
  · unfold texts importOld importNew needle helper runningOld runningNew waitingOld
      waitingNew importOs
      helperCode guardLine
    simp only [List.cons_append, List.nil_append]
    repeat (first
      | exact SpelledAll.nil | apply SpelledAll.cons | exact Spelled.nil | apply Spelled.cons)
  · decide +kernel

theorem edits_sound :
    helperEdit.keeps (joinLines importOs) = true ∧
      [runningEdit, waitingEdit].all (Edit.keeps (joinLines importOs)) = true ∧
      isIn (joinLines importOs) (joinLines importNew) = true ∧
      importEdit.adds (joinLines guardLine) 0 = true ∧
      importEdit.adds (joinLines helperCode) 0 = true ∧
      isIn (joinLines helperCode) (joinLines helper) = true ∧
      [runningEdit, waitingEdit].all (Edit.adds (joinLines helperCode) 0) = true ∧
      Edit.keptInTurn [runningEdit, waitingEdit] = true := by
  have h := editsSound_texts
  simp only [texts, List.map_cons, List.map_nil, editsSound, Bool.and_eq_true, and_assoc] at h
  exact h

/-! ### What a success means -/

/-- What the installer does to a file without the mark. -/
theorem main_patches {t t' : Text} (hmark : isIn mark t = false) (h : main (some t) = some t') :
    ∃ t₁ t₂, Edit.Patches
        (if isIn (joinLines importOs) (splitHead (joinLines importTime) t) then
          [] else [importEdit]) t t₁ ∧
      Edit.Patches (if isIn (joinLines guardLine) t₁ then [] else [helperEdit]) t₁ t₂ ∧
      Edit.Patches [runningEdit, waitingEdit] t₂ t' := by
  rw [main, hmark, if_neg Bool.false_ne_true] at h
  obtain ⟨t₁, h₁, h⟩ := Option.bind_eq_some_iff.mp h
  obtain ⟨t₂, h₂, h⟩ := Option.bind_eq_some_iff.mp h
  obtain ⟨t₃, h₃, h₄⟩ := Option.bind_eq_some_iff.mp h
  exact ⟨t₁, t₂, patches_of_optional h₁, patches_of_optional h₂,
    (patches_of_replaceOnce h₃).append (patches_of_replaceOnce h₄)⟩

/-- A file without the mark is complete after a success if the helper that it has, if any, is that
of the overlay. -/
theorem complete_of_unmarked {t t' : Text} (hmark : isIn mark t = false)
    (h : main (some t) = some t') :
    Complete t' ↔ (isIn (joinLines guardLine) t = true → joinLines helperCode <:+: t) := by
  obtain ⟨hkeep, hkeeps, hputOs, hguard, hcode, hputCode, hcodes, hturn⟩ := edits_sound
  obtain ⟨t₁, t₂, h₁, h₂, h₃⟩ := main_patches hmark h
  have himport : joinLines importOs <:+: t' := by
    refine h₃.infix_of_keeps hkeeps (h₂.infix_of_keeps (Edit.all_optional hkeep) ?_)
    refine (h₁.infix_optional ?_).mpr fun hin => ?_
    · rw [importEdit, new_between]
      exact infix_of_isIn hputOs
    · exact (infix_of_isIn hin).trans (splitHead_within _ t)
  have hhelper : joinLines helperCode <:+: t' ↔
      (isIn (joinLines guardLine) t = true → joinLines helperCode <:+: t) := by
    have hnew : joinLines helperCode <:+: helperEdit.new := by
      rw [helperEdit, new_between]
      exact (infix_of_isIn hputCode).trans (List.prefix_append _ _).isInfix
    rw [h₃.infix_iff hcodes, h₂.infix_optional hnew, isIn_of_patches h₁ (Edit.all_optional hguard),
      h₁.infix_iff (Edit.all_optional hcode)]
  have hrunning : joinLines runningNew <:+: t' := by
    have := h₃.new_within hturn runningEdit List.mem_cons_self
    rwa [runningEdit, new_between] at this
  have hwaiting : joinLines waitingNew <:+: t' := by
    have := h₃.new_within hturn waitingEdit (List.mem_cons_of_mem _ List.mem_cons_self)
    rwa [waitingEdit, new_between] at this
  exact ⟨fun hcomplete => hhelper.mp hcomplete.helper,
    fun hguarded => ⟨himport, hhelper.mpr hguarded, hrunning, hwaiting⟩⟩

/-- When the file is complete after a success. -/
theorem complete_main_iff {t t' : Text} (h : main (some t) = some t') :
    Complete t' ↔ (isIn mark t = true → Complete t) ∧
      (isIn mark t = false → isIn (joinLines guardLine) t = true →
        joinLines helperCode <:+: t) := by
  cases hmark : isIn mark t with
  | true =>
    rw [main, if_pos hmark] at h
    cases h
    simp
  | false =>
    rw [complete_of_unmarked hmark h]
    simp

end Glm53Serve.Overlay.DecodeFloor
