import Glm53Serve.Py.Replace

/-!
# Installing the stop guard

`patch_suppress_stops_in_reasoning.py` patches the detokenizer in four places.

## The model

`apply_text` and `apply_file`, with the status that they return.

## What is proved

* `applyText_patches` — the edits that it makes.
* `complete_applyText_iff` — when the text is complete after a success.
-/

namespace Glm53Serve.Overlay.SuppressStops

open Py Occurrences

/-! ### The texts -/

/-- `MARK`. -/
def markLines : List String :=
  ["# [suppress-stops-in-reasoning]"]

/-- `IMPORT_OLD`. -/
def importOld : List String :=
  ["import sys",
   "from abc import ABC, abstractmethod",
   ""]

/-- `IMPORT_NEW`. -/
def importNew : List String :=
  ["import os",
   "import sys",
   "from abc import ABC, abstractmethod",
   ""]

/-- `FACTORY_OLD`. -/
def factoryOld : List String :=
  ["        if USE_FAST_DETOKENIZER and isinstance(tokenizer, TokenizersBackend):",
   "            # Fast tokenizer => use tokenizers library DecodeStream.",
   "            return FastIncrementalDetokenizer(tokenizer, request)",
   "",
   "        # Fall back to slow python-based incremental detokenization.",
   "        return SlowIncrementalDetokenizer(tokenizer, request)",
   ""]

/-- `FACTORY_NEW`: the factory. -/
def factoryBody : List String :=
  ["        if USE_FAST_DETOKENIZER and isinstance(tokenizer, TokenizersBackend):",
   "            # Fast tokenizer => use tokenizers library DecodeStream.",
   "            detok = FastIncrementalDetokenizer(tokenizer, request)",
   "        else:",
   "            # Fall back to slow python-based incremental detokenization.",
   "            detok = SlowIncrementalDetokenizer(tokenizer, request)",
   "        IncrementalDetokenizer._maybe_enable_reasoning_stop_guard(",
   "            detok, tokenizer, request",
   "        )",
   "        return detok",
   ""]

/-- `FACTORY_NEW`: the markers and the switch. -/
def stopMarkers : List String :=
  ["    @staticmethod",
   "    def _reasoning_stop_markers() -> tuple[str, str]:",
   "        # [suppress-stops-in-reasoning] prefer reasoning_config markers.",
   "        start, end = \"<think>\", \"</think>\"",
   "        try:",
   "            from vllm.config import get_current_vllm_config_or_none",
   "",
   "            cfg = get_current_vllm_config_or_none()",
   "            rc = getattr(cfg, \"reasoning_config\", None) if cfg else None",
   "            if rc is not None:",
   "                start = getattr(rc, \"reasoning_start_str\", \"\") or start",
   "                end = getattr(rc, \"reasoning_end_str\", \"\") or end",
   "        except Exception as e:",
   "            logger.debug(",
   "                \"suppress-stops-in-reasoning: no reasoning config (%s); using %r / %r\",",
   "                e,",
   "                start,",
   "                end,",
   "            )",
   "        return start, end",
   "",
   "    @staticmethod",
   "    def _suppress_stops_enabled() -> bool:",
   "        for key in (",
   "            \"GLM53_SUPPRESS_STOPS_IN_REASONING\",",
   "            \"VLLM_SUPPRESS_STOPS_IN_REASONING\",",
   "        ):",
   "            if key in os.environ:",
   "                return os.environ.get(key) != \"0\"",
   "        return True",
   ""]

/-- `FACTORY_NEW`: `_maybe_enable_reasoning_stop_guard`. -/
def enableGuard : List String :=
  ["    @staticmethod",
   "    def _maybe_enable_reasoning_stop_guard(detok, tokenizer, request) -> None:",
   "        # [suppress-stops-in-reasoning] last prompt token == <think> →",
   "        # keep client stop strings dormant until </think>.",
   "        if not IncrementalDetokenizer._suppress_stops_enabled():",
   "            return",
   "        try:",
   "            stop = getattr(detok, \"stop\", None)",
   "            ptids = getattr(request, \"prompt_token_ids\", None)",
   "            if not stop or not ptids:",
   "                return",
   "            start_str, end_str = IncrementalDetokenizer._reasoning_stop_markers()",
   "            think_id = None",
   "            convert = getattr(tokenizer, \"convert_tokens_to_ids\", None)",
   "            if callable(convert):",
   "                think_id = convert(start_str)",
   "            if think_id is None or think_id < 0:",
   "                encode = getattr(tokenizer, \"encode\", None)",
   "                if callable(encode):",
   "                    try:",
   "                        ids = encode(start_str, add_special_tokens=False)",
   "                    except TypeError:",
   "                        ids = encode(start_str)",
   "                    if isinstance(ids, list) and len(ids) == 1:",
   "                        think_id = ids[0]",
   "            if think_id is not None and think_id >= 0 and ptids[-1] == think_id:",
   "                detok._reasoning_stop_guard = True",
   "                detok._reasoning_end_str = end_str",
   "        except Exception as e:",
   "            logger.debug(\"suppress-stops-in-reasoning: guard not armed (%s)\", e)",
   ""]

/-- `FACTORY_NEW`. -/
def factoryNew : List String := factoryBody ++ stopMarkers ++ enableGuard

/-- `INIT_OLD`. -/
def initOld : List String :=
  ["        self._last_output_text_offset: int = 0",
   "",
   "        # Generation data",
   "        self.output_text = \"\"",
   ""]

/-- `INIT_NEW`. -/
def initNew : List String :=
  ["        self._last_output_text_offset: int = 0",
   "",
   "        # [suppress-stops-in-reasoning] client stops stay dormant while",
   "        # generation is still inside <think> (think-in-prompt).",
   "        self._reasoning_stop_guard: bool = False",
   "        self._reasoning_closed: bool = False",
   "        self._reasoning_end_str: str = \"</think>\"",
   "",
   "        # Generation data",
   "        self.output_text = \"\"",
   ""]

/-- `STOP_OLD`. -/
def stopOld : List String :=
  ["        # 2) Evaluate stop strings.",
   "        stop_string = None",
   "        if self.stop and self.num_output_tokens() > self.min_tokens:",
   "            stop = check_stop_strings(",
   ""]

/-- `STOP_NEW`. -/
def stopNew : List String :=
  ["        # 2) Evaluate stop strings.",
   "        # [suppress-stops-in-reasoning] keep stops dormant while reasoning",
   "        # is open. Advance stop_check_offset past </think> so a speculative",
   "        # chunk that also carries the last think tokens cannot fire.",
   "        if self._reasoning_stop_guard and not self._reasoning_closed:",
   "            marker = self._reasoning_end_str",
   "            window = max(0, stop_check_offset - (len(marker) - 1))",
   "            idx = self.output_text.find(marker, window)",
   "            if idx != -1:",
   "                self._reasoning_closed = True",
   "                stop_check_offset = max(stop_check_offset, idx + len(marker))",
   "        stop_string = None",
   "        if (",
   "            self.stop",
   "            and self.num_output_tokens() > self.min_tokens",
   "            and (not self._reasoning_stop_guard or self._reasoning_closed)",
   "        ):",
   "            stop = check_stop_strings(",
   ""]

/-- What the installer looks for besides the mark. -/
def guardName : List String := ["_maybe_enable_reasoning_stop_guard"]

/-! ### The installer -/

/-- `MARK`. -/
def mark : Text := joinLines markLines

/-- What `apply_text` returns besides the text. -/
inductive Status where
  | applied
  | skipped
  | missing (what : List String)
  deriving DecidableEq

/-- Whether the text is taken for patched. -/
def skips (src : Text) : Bool := isIn mark src && isIn (joinLines guardName) src

/-- The anchors that are not in the text. -/
def missing (src : Text) : List String :=
  ([("import", importOld), ("factory", factoryOld), ("init", initOld), ("stop", stopOld)].filter
    fun a => !isIn (joinLines a.2) src).map Prod.fst

/-- `apply_text`. -/
def applyText (src : Text) : Text × Status :=
  if skips src then (src, .skipped)
  else if missing src ≠ [] then (src, .missing (missing src))
  else
    let out := replaceFirst (joinLines importOld) (joinLines importNew) src
    let out := replaceFirst (joinLines factoryOld) (joinLines factoryNew) out
    let out := replaceFirst (joinLines initOld) (joinLines initNew) out
    (replaceFirst (joinLines stopOld) (joinLines stopNew) out, .applied)

/-- `apply_file`: the text that it leaves in the file, and the status. -/
def applyFile (file : Option Text) : Option (Text × Status) :=
  file.map fun text =>
    let (new, status) := applyText text
    (if status = .applied then new else text, status)

/-- What the overlay puts into a file. -/
structure Complete (t : Text) : Prop where
  importOs : joinLines importNew <:+: t
  factory : joinLines factoryNew <:+: t
  init : joinLines initNew <:+: t
  stop : joinLines stopNew <:+: t

/-! ### The edits -/

def edits : List (Edit Char) :=
  [Edit.between (joinLines importOld) (joinLines importNew),
   Edit.between (joinLines factoryOld) (joinLines factoryNew),
   Edit.between (joinLines initOld) (joinLines initNew),
   Edit.between (joinLines stopOld) (joinLines stopNew)]

def texts : List (List String) :=
  [importOld, importNew, factoryOld, factoryNew, initOld, initNew, stopOld, stopNew]

/-- What the edits do to the texts of each other. -/
def editsSound : List Text → Bool
  | [importOld, importNew, factoryOld, factoryNew, initOld, initNew, stopOld, stopNew] =>
    let edits := [Edit.between importOld importNew, Edit.between factoryOld factoryNew,
      Edit.between initOld initNew, Edit.between stopOld stopNew]
    (edits.take 1).all (Edit.keeps factoryOld) && (edits.take 2).all (Edit.keeps initOld) &&
      (edits.take 3).all (Edit.keeps stopOld) && Edit.keptInTurn edits
  | _ => false

set_option maxRecDepth 20000 in
theorem editsSound_texts : editsSound (texts.map joinLines) = true := by
  apply check_of_spelled editsSound
  · unfold texts importOld importNew factoryOld factoryNew factoryBody stopMarkers
      enableGuard initOld
      initNew stopOld stopNew
    simp only [List.cons_append, List.nil_append]
    repeat (first
      | exact SpelledAll.nil | apply SpelledAll.cons | exact Spelled.nil | apply Spelled.cons)
  · decide +kernel

theorem edits_sound :
    (edits.take 1).all (Edit.keeps (joinLines factoryOld)) = true ∧
      (edits.take 2).all (Edit.keeps (joinLines initOld)) = true ∧
      (edits.take 3).all (Edit.keeps (joinLines stopOld)) = true ∧
      Edit.keptInTurn edits = true := by
  have h := editsSound_texts
  simp only [texts, List.map_cons, List.map_nil, editsSound, Bool.and_eq_true, and_assoc] at h
  exact h

/-! ### What a success means -/

theorem occ_of_missing {src : Text} (h : missing src = []) :
    occ (joinLines importOld) src ≠ 0 ∧ occ (joinLines factoryOld) src ≠ 0 ∧
      occ (joinLines initOld) src ≠ 0 ∧ occ (joinLines stopOld) src ≠ 0 := by
  rw [missing, List.map_eq_nil_iff, List.filter_eq_nil_iff] at h
  simpa [isIn_iff_occ] using h

/-- `apply_file` leaves what `apply_text` returns. -/
theorem written_eq (src : Text) :
    (if (applyText src).2 = .applied then (applyText src).1 else src) = (applyText src).1 := by
  rw [applyText]
  split_ifs <;> simp_all

/-- What the installer does to a text that it takes for not patched. -/
theorem applyText_patches {src : Text} (hskip : skips src = false) (hmissing : missing src = []) :
    (applyText src).2 = .applied ∧ Edit.Patches edits src (applyText src).1 := by
  obtain ⟨hfactory, hinit, hstop, -⟩ := edits_sound
  obtain ⟨h₁, h₂, h₃, h₄⟩ := occ_of_missing hmissing
  have hone := patches_between h₁ (joinLines importNew)
  have hocc₂ := hone.occ_le hfactory
  have htwo := hone.append
    (patches_between (by omega : occ (joinLines factoryOld) _ ≠ 0) (joinLines factoryNew))
  have hocc₃ := htwo.occ_le hinit
  have hthree := htwo.append
    (patches_between (by omega : occ (joinLines initOld) _ ≠ 0) (joinLines initNew))
  have hocc₄ := hthree.occ_le hstop
  have hfour := hthree.append
    (patches_between (by omega : occ (joinLines stopOld) _ ≠ 0) (joinLines stopNew))
  rw [applyText, hskip, if_neg Bool.false_ne_true, if_neg (by simp [hmissing])]
  exact ⟨rfl, hfour⟩

/-- A success. -/
def Succeeds (status : Status) : Prop := status = .applied ∨ status = .skipped

/-- When the text is complete after a success. -/
theorem complete_applyText_iff {src : Text} (h : Succeeds (applyText src).2) :
    Complete (applyText src).1 ↔ (skips src = true → Complete src) := by
  cases hskip : skips src with
  | true => simp [applyText, hskip]
  | false =>
    have hmissing : missing src = [] := by
      by_contra hne
      simp [applyText, hskip, hne, Succeeds] at h
    obtain ⟨-, -, -, hturn⟩ := edits_sound
    have hnew := (applyText_patches hskip hmissing).2.new_within hturn
    refine iff_of_true ?_ (by simp)
    obtain ⟨himport, hfactory, hinit, hstop⟩ := by simpa [edits, new_between] using hnew
    exact ⟨himport, hfactory, hinit, hstop⟩

end Glm53Serve.Overlay.SuppressStops
