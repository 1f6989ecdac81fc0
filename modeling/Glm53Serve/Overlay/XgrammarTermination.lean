import Glm53Serve.Overlay.Preflight

/-!
# Installing the xgrammar backports

`patch_xgrammar_termination.py` replaces three functions of the backend and one branch of the
manager by what upstream has there, behind a marker.

## The model

`prepare_backend` and `prepare_manager`.

## What is proved

* `prepareBackend_preflighted`, `prepareManager_preflighted` — what they return is complete and
  stays, and stems from the source.
-/

namespace Glm53Serve.Overlay.XgrammarTermination

open Py Occurrences

/-! ### The texts -/

/-- `BACKEND_MARK`. -/
def backendMark : List String :=
  ["    # [glm53-xgrammar-termination] Source-exact vLLM 12f64b39 backport.",
   ""]

/-- `MANAGER_MARK`. -/
def managerMark : List String :=
  ["                    # [glm53-xgrammar-reasoning] Source-exact vLLM c6e19b3 backport.",
   ""]

/-- `ACCEPT_OLD`. -/
def acceptOld : List String :=
  ["    def accept_tokens(self, request_id: str, tokens: list[int]) -> bool:",
   "        \"\"\"Accepts a list of tokens and advances the FSM.",
   "",
   "        Returns True if the FSM was advanced successfully.",
   "        Returns False if the FSM failed to advance.",
   "        \"\"\"",
   "        if self._is_terminated:",
   "            return False",
   "        for token in tokens:",
   "            if not self.matcher.accept_token(token):",
   "                logger.error(",
   "                    \"Failed to advance FSM for request %s \"",
   "                    \"for tokens %s. Please file an issue.\",",
   "                    request_id,",
   "                    token,",
   "                )",
   "                return False",
   "            self.num_processed_tokens += 1",
   "        self._is_terminated = self.matcher.is_terminated()",
   "        return True",
   ""]

/-- `ACCEPT_UPSTREAM`. -/
def acceptUpstream : List String :=
  ["    def accept_tokens(self, request_id: str, tokens: list[int]) -> bool:",
   "        \"\"\"Accepts a list of tokens and advances the FSM.",
   "",
   "        Returns True if all grammar-constrained tokens were accepted.",
   "        Tokens after termination are ignored. Returns False if the FSM",
   "        failed to advance.",
   "        \"\"\"",
   "        if self._is_terminated:",
   "            return True",
   "        for token in tokens:",
   "            if not self.matcher.accept_token(token):",
   "                logger.error(",
   "                    \"Failed to advance FSM for request %s \"",
   "                    \"for tokens %s. Please file an issue.\",",
   "                    request_id,",
   "                    token,",
   "                )",
   "                return False",
   "            self.num_processed_tokens += 1",
   "            self._is_terminated = self.matcher.is_terminated()",
   "            if self._is_terminated:",
   "                break",
   "        return True",
   ""]

/-- `VALIDATE_OLD`. -/
def validateOld : List String :=
  ["    def validate_tokens(self, tokens: list[int]) -> list[int]:",
   "        \"\"\"Checks if the list of tokens are accepted by the FSM in sequence.",
   "        Will not advance the FSM.",
   "",
   "        Returns the prefix list of tokens that are accepted by the FSM.",
   "        \"\"\"",
   "        accepted_tokens = []",
   "        for token in tokens:",
   "            if self.matcher.accept_token(token):",
   "                accepted_tokens.append(token)",
   "            else:",
   "                break",
   "        if len(accepted_tokens) > 0:",
   "            # Rollback the FSM to the initial state",
   "            self.matcher.rollback(len(accepted_tokens))",
   "        return accepted_tokens",
   ""]

/-- `VALIDATE_UPSTREAM`. -/
def validateUpstream : List String :=
  ["    def validate_tokens(self, tokens: list[int]) -> list[int]:",
   "        \"\"\"Checks if the list of tokens are accepted by the FSM in sequence.",
   "        Will not advance the FSM.",
   "",
   "        Returns the prefix list of tokens that are accepted by the FSM.",
   "        \"\"\"",
   "        if self._is_terminated:",
   "            return []",
   "",
   "        accepted_tokens = []",
   "        for token in tokens:",
   "            if self.matcher.accept_token(token):",
   "                accepted_tokens.append(token)",
   "                if self.matcher.is_terminated():",
   "                    break",
   "            else:",
   "                break",
   "        if len(accepted_tokens) > 0:",
   "            # Rollback the FSM to the initial state",
   "            self.matcher.rollback(len(accepted_tokens))",
   "        return accepted_tokens",
   ""]

/-- `RESET_OLD`. -/
def resetOld : List String :=
  ["    def reset(self):",
   "        self.num_processed_tokens = 0",
   "        self.matcher.reset()",
   ""]

/-- `RESET_UPSTREAM`. -/
def resetUpstream : List String :=
  ["    def reset(self):",
   "        self.matcher.reset()",
   "        self.num_processed_tokens = 0",
   "        self._is_terminated = False",
   ""]

/-- `MANAGER_OLD`. -/
def managerOld : List String :=
  ["                    if advance_grammar and not grammar.is_terminated():",
   "                        accepted = grammar.accept_tokens(req_id, [token])",
   "                        if accepted:",
   "                            state_advancements += 1",
   "                        elif not post_reasoning_end_in_window:",
   "                            raise AssertionError(",
   "                                (token, req_id, scheduled_spec_decode_tokens)",
   "                            )",
   ""]

/-- `MANAGER_UPSTREAM`. -/
def managerUpstream : List String :=
  ["                    if advance_grammar and not grammar.is_terminated():",
   "                        if post_reasoning_end_in_window:",
   "                            accepted = bool(grammar.validate_tokens([token]))",
   "                            if accepted:",
   "                                accepted = grammar.accept_tokens(req_id, [token])",
   "                        else:",
   "                            accepted = grammar.accept_tokens(req_id, [token])",
   "                        if accepted:",
   "                            state_advancements += 1",
   "                        elif not post_reasoning_end_in_window:",
   "                            raise AssertionError(",
   "                                (token, req_id, scheduled_spec_decode_tokens)",
   "                            )",
   ""]

/-! ### What the two functions share -/

/-- A text with the marker has to be complete; one without it is taken for upstream's if it is
complete; any other has to be `ready` for the patch, whose result is checked. -/
def prepareMarked (mark : Text) (verified ready : Text → Bool) (patch : Text → Text)
    (inconsistent drifted failed : ValueError) (source : Text) :
    Except ValueError (Text × Action) :=
  let marker := count source mark
  if marker ≠ 0 then
    if marker ≠ 1 ∨ verified source = false then .error inconsistent
    else .ok (source, .alreadyPresent)
  else if verified source then .ok (source, .alreadyUpstream)
  else if ready source = false then .error drifted
  else
    let patched := patch source
    if verified patched = false ∨ count patched mark ≠ 1 then .error failed
    else .ok (patched, .patched)

section
variable {mark : Text} {verified ready : Text → Bool} {patch : Text → Text}
  {inconsistent drifted failed : ValueError}

/-- A complete text is left alone. -/
theorem prepareMarked_verified {t : Text} (h : verified t = true) (hmark : count t mark ≤ 1) :
    ∃ a : Action, a.already = true ∧
      prepareMarked mark verified ready patch inconsistent drifted failed t = .ok (t, a) := by
  rw [prepareMarked]
  rcases Nat.le_one_iff_eq_zero_or_eq_one.mp hmark with h0 | h1
  · refine ⟨.alreadyUpstream, by decide, ?_⟩
    simp [h0, h]
  · refine ⟨.alreadyPresent, by decide, ?_⟩
    simp [h1, h]

/-- What has been checked of a text that is returned. -/
theorem prepareMarked_ok {source t : Text} {action : Action}
    (h : prepareMarked mark verified ready patch inconsistent drifted failed source =
      .ok (t, action)) :
    verified t = true ∧ count t mark ≤ 1 ∧ (action.already = true ∧ t = source ∨
      action = .patched ∧ ready source = true ∧ patch source = t) := by
  simp only [prepareMarked] at h
  split_ifs at h with hmark hinconsistent hupstream hdrifted hfailed
  · -- the marker is there
    cases h
    simp only [not_or, ne_eq, Decidable.not_not, Bool.not_eq_false] at hinconsistent
    exact ⟨hinconsistent.2, hinconsistent.1.le, .inl ⟨by decide, rfl⟩⟩
  · cases h
    rw [ne_eq, Decidable.not_not] at hmark
    exact ⟨hupstream, by omega, .inl ⟨by decide, rfl⟩⟩
  · cases h
    simp only [not_or, ne_eq, Decidable.not_not, Bool.not_eq_false] at hfailed hdrifted
    exact ⟨hfailed.1, hfailed.2.le, .inr ⟨rfl, hdrifted, rfl⟩⟩

/-- What the function returns is complete and stays, if the patch is that of some sites and is
made where every anchor occurs once. -/
theorem prepareMarked_preflighted {sites : List Site} (hsound : soundSites sites = true)
    (hverified : ∀ t, verified t = true → Verified sites t)
    (hready : ∀ t, ready t = true → ∀ s ∈ sites, count t s.anchor = 1)
    (hpatch : ∀ t, Edit.applyAll (sites.map Site.edit) t = patch t)
    {prepare : Text → Except ValueError (Text × Action)} {errors : Text → ValueError × ValueError}
    (hprepare : ∀ t, prepare t =
      prepareMarked mark verified ready patch (errors t).1 (errors t).2 failed t)
    {source t : Text} {action : Action} (h : prepare source = .ok (t, action)) :
    Preflighted sites prepare source t action := by
  rw [hprepare] at h
  obtain ⟨hchecked, hmark, hstems⟩ := prepareMarked_ok h
  obtain ⟨again, hagain, heq⟩ := prepareMarked_verified hchecked hmark
  refine preflighted_of_verified hsound (hverified t hchecked)
    ⟨again, hagain, (hprepare t).trans heq⟩ (hstems.imp_right ?_)
  rintro ⟨hact, hcounts, heq⟩
  exact ⟨hact, findsOnce_of_counts hsound (hready source hcounts), (hpatch source).trans heq⟩

end

/-! ### The backend -/

/-- `backend_counts`. -/
def backendCounts (text : Text) : List ℕ × List ℕ :=
  ([acceptOld, validateOld, resetOld].map fun x => count text (joinLines x),
   [count text (joinLines acceptUpstream), count text (joinLines validateUpstream),
    count text (joinLines resetUpstream)])

/-- `verified_backend_state`. -/
def verifiedBackendState (text : Text) : Bool :=
  (backendCounts text).1 == [0, 0, 0] && (backendCounts text).2 == [1, 1, 1]

/-- The anchors of the backend have not drifted. -/
def backendReady (text : Text) : Bool :=
  (backendCounts text).1 == [1, 1, 1] && (backendCounts text).2 == [0, 0, 0]

/-- The replacements of `prepare_backend`. -/
def patchBackend (source : Text) : Text :=
  let patched :=
    replaceFirst (joinLines acceptOld) (joinLines backendMark ++ joinLines acceptUpstream) source
  let patched := replaceFirst (joinLines validateOld) (joinLines validateUpstream) patched
  replaceFirst (joinLines resetOld) (joinLines resetUpstream) patched

/-- The errors of `prepare_backend` about its source. -/
def backendErrors (source : Text) : ValueError × ValueError :=
  let old := (backendCounts source).1
  let new := (backendCounts source).2
  let marker := count source (joinLines backendMark)
  (⟨"partial/inconsistent xgrammar termination patch " ++
    s!"(marker={marker}, old={old}, new={new})"⟩,
   ⟨"pinned xgrammar termination anchors drifted " ++ s!"(old={old}, new={new})"⟩)

/-- `prepare_backend`. -/
def prepareBackend (source : Text) : Except ValueError (Text × Action) :=
  prepareMarked (joinLines backendMark) verifiedBackendState backendReady patchBackend
    (backendErrors source).1 (backendErrors source).2
    ⟨"xgrammar termination post-patch verification failed"⟩ source

def backendSites : List Site :=
  [⟨joinLines acceptOld, joinLines acceptUpstream,
    joinLines backendMark ++ joinLines acceptUpstream⟩,
   ⟨joinLines validateOld, joinLines validateUpstream, joinLines validateUpstream⟩,
   ⟨joinLines resetOld, joinLines resetUpstream, joinLines resetUpstream⟩]

def backendSound : List Text → Bool
  | [mark, acceptOld, acceptUpstream, validateOld, validateUpstream, resetOld, resetUpstream] =>
    let sites := [⟨acceptOld, acceptUpstream, mark ++ acceptUpstream⟩,
      ⟨validateOld, validateUpstream, validateUpstream⟩, ⟨resetOld, resetUpstream, resetUpstream⟩]
    soundSites sites && leaveNoAnchor sites
  | _ => false

def backendTexts : List (List String) :=
  [backendMark, acceptOld, acceptUpstream, validateOld, validateUpstream, resetOld, resetUpstream]

set_option maxRecDepth 20000 in
theorem backendSound_texts : backendSound (backendTexts.map joinLines) = true := by
  apply check_of_spelled backendSound
  · unfold backendTexts backendMark acceptOld acceptUpstream validateOld validateUpstream resetOld
      resetUpstream
    repeat (first
      | exact SpelledAll.nil | apply SpelledAll.cons | exact Spelled.nil | apply Spelled.cons)
  · decide +kernel

theorem backend_sound : soundSites backendSites = true ∧ leaveNoAnchor backendSites = true := by
  have h := backendSound_texts
  simp only [backendTexts, List.map_cons, List.map_nil, backendSound, Bool.and_eq_true] at h
  exact h

theorem applyAll_backendSites (source : Text) :
    Edit.applyAll (backendSites.map Site.edit) source = patchBackend source := by
  rw [backendSites, applyAll_sites, applyAll_sites, applyAll_sites, patchBackend]
  exact List.foldl_nil

theorem backendCounts_eq {text : Text} {a v r : ℕ} :
    (backendCounts text).1 = [a, v, r] ↔ count text (joinLines acceptOld) = a ∧
      count text (joinLines validateOld) = v ∧ count text (joinLines resetOld) = r := by
  simp only [backendCounts, List.map_cons, List.map_nil, List.cons.injEq, and_true]

theorem verified_backend {t : Text} (h : verifiedBackendState t = true) :
    Verified backendSites t := by
  rw [verifiedBackendState, Bool.and_eq_true, beq_iff_eq, beq_iff_eq, backendCounts_eq] at h
  obtain ⟨⟨haccept, hvalidate, hreset⟩, hnew⟩ := h
  simp only [backendCounts, List.cons.injEq, and_true] at hnew
  obtain ⟨haccept', hvalidate', hreset'⟩ := hnew
  refine verified_of_counts backend_sound.2 ?_
  rw [backendSites, List.forall_mem_cons, List.forall_mem_cons, List.forall_mem_singleton]
  exact ⟨⟨haccept', haccept⟩, ⟨hvalidate', hvalidate⟩, hreset', hreset⟩

theorem backend_ready {t : Text} (h : backendReady t = true) :
    ∀ s ∈ backendSites, count t s.anchor = 1 := by
  rw [backendReady, Bool.and_eq_true, beq_iff_eq, backendCounts_eq] at h
  rw [backendSites, List.forall_mem_cons, List.forall_mem_cons, List.forall_mem_singleton]
  exact h.1

theorem prepareBackend_preflighted {source t : Text} {action : Action}
    (h : prepareBackend source = .ok (t, action)) :
    Preflighted backendSites prepareBackend source t action :=
  prepareMarked_preflighted backend_sound.1 (fun _ => verified_backend) (fun _ => backend_ready)
    applyAll_backendSites (fun _ => rfl) h

/-! ### The manager -/

/-- `verified_manager_state`. -/
def verifiedManagerState (text : Text) : Bool :=
  count text (joinLines managerOld) == 0 && count text (joinLines managerUpstream) == 1

/-- The anchor of the manager has not drifted. -/
def managerReady (text : Text) : Bool :=
  count text (joinLines managerOld) == 1 && count text (joinLines managerUpstream) == 0

/-- The replacement of `prepare_manager`. -/
def patchManager (source : Text) : Text :=
  replaceFirst (joinLines managerOld) (joinLines managerMark ++ joinLines managerUpstream) source

/-- The errors of `prepare_manager` about its source. -/
def managerErrors (source : Text) : ValueError × ValueError :=
  let old := count source (joinLines managerOld)
  let new := count source (joinLines managerUpstream)
  let marker := count source (joinLines managerMark)
  (⟨"partial/inconsistent xgrammar reasoning patch " ++
    s!"(marker={marker}, old={old}, new={new})"⟩,
   ⟨"pinned xgrammar reasoning anchor drifted " ++ s!"(old={old}, new={new})"⟩)

/-- `prepare_manager`. -/
def prepareManager (source : Text) : Except ValueError (Text × Action) :=
  prepareMarked (joinLines managerMark) verifiedManagerState managerReady patchManager
    (managerErrors source).1 (managerErrors source).2
    ⟨"xgrammar reasoning post-patch verification failed"⟩ source

def managerSites : List Site :=
  [⟨joinLines managerOld, joinLines managerUpstream,
    joinLines managerMark ++ joinLines managerUpstream⟩]

def managerSound : List Text → Bool
  | [mark, old, upstream] =>
    soundSites [⟨old, upstream, mark ++ upstream⟩] &&
      leaveNoAnchor [⟨old, upstream, mark ++ upstream⟩]
  | _ => false

set_option maxRecDepth 20000 in
theorem managerSound_texts :
    managerSound ([managerMark, managerOld, managerUpstream].map joinLines) = true := by
  apply check_of_spelled managerSound
  · unfold managerMark managerOld managerUpstream
    repeat (first
      | exact SpelledAll.nil | apply SpelledAll.cons | exact Spelled.nil | apply Spelled.cons)
  · decide +kernel

theorem manager_sound : soundSites managerSites = true ∧ leaveNoAnchor managerSites = true := by
  have h := managerSound_texts
  simp only [List.map_cons, List.map_nil, managerSound, Bool.and_eq_true] at h
  exact h

theorem verified_manager {t : Text} (h : verifiedManagerState t = true) :
    Verified managerSites t := by
  rw [verifiedManagerState, Bool.and_eq_true, beq_iff_eq, beq_iff_eq] at h
  refine verified_of_counts manager_sound.2 ?_
  rw [managerSites, List.forall_mem_singleton]
  exact ⟨h.2, h.1⟩

theorem manager_ready {t : Text} (h : managerReady t = true) :
    ∀ s ∈ managerSites, count t s.anchor = 1 := by
  rw [managerReady, Bool.and_eq_true, beq_iff_eq] at h
  rw [managerSites, List.forall_mem_singleton]
  exact h.1

theorem applyAll_managerSites (source : Text) :
    Edit.applyAll (managerSites.map Site.edit) source = patchManager source := by
  rw [managerSites, applyAll_sites, patchManager]
  exact List.foldl_nil

theorem prepareManager_preflighted {source t : Text} {action : Action}
    (h : prepareManager source = .ok (t, action)) :
    Preflighted managerSites prepareManager source t action :=
  prepareMarked_preflighted manager_sound.1 (fun _ => verified_manager) (fun _ => manager_ready)
    applyAll_managerSites (fun _ => rfl) h

end Glm53Serve.Overlay.XgrammarTermination
