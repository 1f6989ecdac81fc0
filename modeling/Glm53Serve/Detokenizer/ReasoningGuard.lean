import Glm53Serve.Lib.Run
import Glm53Serve.Py.Find

/-!
# The reasoning guard

While a request is still in its reasoning, the client's stop strings are to sleep.
`overlay/patch_suppress_stops_in_reasoning.py` opens the guard when the end marker is in
the output.

## The model

`update` of the detokenizer, with the texts of the tokens it decodes. What the stop strings
match is left out; the model keeps the offset from which they are looked for.

## What is proved

* `run_text`, `run_offset` — the output after a run, and where a search starts.
* `update_closed_iff` — when an update finds the guard open.
* `opens_iff` — in which runs the guard opens when, and only when, the marker is there.
-/

namespace Glm53Serve.Detokenizer

open Py

/-! ### `update` -/

/-- The detokenizer of a request. -/
structure Detok where
  outputText : Text
  /-- `num_output_tokens()`. -/
  numOutputTokens : ℕ
  minTokens : ℕ
  stop : List Text
  reasoningStopGuard : Bool
  reasoningClosed : Bool
  reasoningEndStr : Text
  /-- The offset with which the last update called `check_stop_strings`, if it did. -/
  checkedFrom : Option ℕ

/-- A new detokenizer whose guard is armed. -/
def armed (minTokens : ℕ) (stop : List Text) (marker : Text) : Detok :=
  ⟨[], 0, minTokens, stop, true, false, marker, none⟩

/-- What the loop over the tokens changes. -/
structure Decoding where
  text : Text
  count : ℕ
  /-- `stop_check_offset`. -/
  offset : ℕ

/-- A turn of the loop. -/
def decodeToken (minTokens : ℕ) (s : Decoding) (token : Text) : Decoding :=
  let text := s.text ++ token
  ⟨text, s.count + 1, if s.count + 1 ≤ minTokens then text.length else s.offset⟩

/-- The text after the loop, and `stop_check_offset`. -/
def decodeAll (d : Detok) (tokens : List Text) : Decoding :=
  tokens.foldl (decodeToken d.minTokens) ⟨d.outputText, d.numOutputTokens, d.outputText.length⟩

/-- Where the marker is found, while the guard is closed. -/
def findMarker (d : Detok) (s : Decoding) : Option ℕ :=
  if d.reasoningStopGuard && !d.reasoningClosed then
    find s.text d.reasoningEndStr (s.offset - (d.reasoningEndStr.length - 1))
  else none

/-- `update(new_token_ids)`. -/
def update (d : Detok) (tokens : List Text) : Detok :=
  let s := decodeAll d tokens
  let idx := findMarker d s
  let closed := d.reasoningClosed || idx.isSome
  let offset := idx.elim s.offset fun i => max s.offset (i + d.reasoningEndStr.length)
  { d with
    outputText := s.text
    numOutputTokens := s.count
    reasoningClosed := closed
    checkedFrom :=
      if d.stop ≠ [] ∧ d.minTokens < s.count ∧ (!d.reasoningStopGuard || closed) then some offset
      else none }

/-! ### The loop over the tokens -/

theorem foldl_decodeToken (minTokens : ℕ) (tokens : List Text) : ∀ s : Decoding,
    tokens.foldl (decodeToken minTokens) s =
      ⟨s.text ++ tokens.flatten, s.count + tokens.length,
        if s.count < minTokens ∧ tokens ≠ [] then
          (s.text ++ (tokens.take (minTokens - s.count)).flatten).length
        else s.offset⟩ := by
  induction tokens with
  | nil => intro s; simp
  | cons token tokens ih =>
    intro s
    rw [List.foldl_cons, ih]
    simp only [decodeToken, List.flatten_cons, List.append_assoc, List.length_cons]
    rw [show s.count + 1 + tokens.length = s.count + (tokens.length + 1) by omega]
    congr 1
    by_cases h1 : s.count < minTokens
    · obtain ⟨k, hk⟩ : ∃ k, minTokens - s.count = k + 1 := ⟨minTokens - s.count - 1, by omega⟩
      rw [if_pos (show s.count < minTokens ∧ token :: tokens ≠ [] from ⟨h1, List.cons_ne_nil _ _⟩),
        hk, List.take_succ_cons, List.flatten_cons]
      by_cases h2 : s.count + 1 < minTokens ∧ tokens ≠ []
      · rw [if_pos h2, show minTokens - (s.count + 1) = k by omega]
      · have hnil : (tokens.take k).flatten = [] := by
          by_cases ht : tokens = []
          · simp [ht]
          · have : k = 0 := by
              by_contra hne
              exact h2 ⟨by omega, ht⟩
            simp [this]
        rw [if_neg h2, if_pos (by omega), hnil, List.append_nil]
    · rw [if_neg (show ¬ (s.count + 1 < minTokens ∧ tokens ≠ []) from fun h => by omega),
        if_neg (by omega), if_neg (fun h => h1 h.1)]

/-- The length of the text of the first `minTokens` tokens. -/
def protectedLength (minTokens : ℕ) (tokens : List Text) : ℕ :=
  ((tokens.take minTokens).flatten).length

theorem protectedLength_le (minTokens : ℕ) (tokens : List Text) :
    protectedLength minTokens tokens ≤ tokens.flatten.length := by
  conv_rhs => rw [← List.take_append_drop minTokens tokens, List.flatten_append, List.length_append]
  exact Nat.le_add_right _ _

/-- **Where the search starts**: at the end of the text before the update, or at the end of the
text of the first `minTokens` tokens, whichever is later. -/
theorem decodeAll_eq {d : Detok} {before : List Text} (ht : d.outputText = before.flatten)
    (hc : d.numOutputTokens = before.length) (tokens : List Text) :
    decodeAll d tokens = ⟨(before ++ tokens).flatten, (before ++ tokens).length,
      max before.flatten.length (protectedLength d.minTokens (before ++ tokens))⟩ := by
  rw [decodeAll, foldl_decodeToken, ht, hc, List.flatten_append, List.length_append]
  simp only [Decoding.mk.injEq, true_and, protectedLength, List.take_append, List.flatten_append,
    List.length_append]
  by_cases h : before.length < d.minTokens
  · have htake : before.take d.minTokens = before := List.take_of_length_le (by omega)
    rw [htake]
    by_cases hn : tokens = []
    · simp [hn]
    · rw [if_pos ⟨h, hn⟩]
      omega
  · rw [if_neg (fun hh => h hh.1), show d.minTokens - before.length = 0 by omega, List.take_zero]
    have := protectedLength_le d.minTokens before
    simp only [protectedLength] at this
    simp only [List.flatten_nil, List.length_nil]
    omega

/-! ### Runs -/

/-- The text of the updates of a run. -/
def textOf (updates : List (List Text)) : Text := updates.flatten.flatten

theorem textOf_append (updates : List (List Text)) (tokens : List Text) :
    textOf (updates ++ [tokens]) = textOf updates ++ tokens.flatten := by
  simp [textOf]

section Run

variable (minTokens : ℕ) (stop : List Text) (marker : Text)

/-- The detokenizer after the updates. -/
def after (updates : List (List Text)) : Detok :=
  Run.run update (armed minTokens stop marker) updates

theorem after_append (updates : List (List Text)) (tokens : List Text) :
    after minTokens stop marker (updates ++ [tokens]) =
      update (after minTokens stop marker updates) tokens := by
  rw [after, Run.run_append]
  rfl

/-- The settings of a detokenizer whose guard is armed. -/
structure Armed (d : Detok) : Prop where
  minTokens_eq : d.minTokens = minTokens
  guard : d.reasoningStopGuard = true
  marker_eq : d.reasoningEndStr = marker

variable {minTokens marker} in
theorem Armed.update {d : Detok} (h : Armed minTokens marker d) (tokens : List Text) :
    Armed minTokens marker (update d tokens) := ⟨h.minTokens_eq, h.guard, h.marker_eq⟩

/-- A run leaves the settings as they are. -/
theorem armed_after (updates : List (List Text)) :
    Armed minTokens marker (after minTokens stop marker updates) :=
  Run.run_invariant (Armed minTokens marker) (fun _ tokens h => h.update tokens)
    ⟨rfl, rfl, rfl⟩ updates

/-- **The output after a run.** -/
theorem run_text (updates : List (List Text)) :
    (after minTokens stop marker updates).outputText = textOf updates ∧
      (after minTokens stop marker updates).numOutputTokens = updates.flatten.length := by
  induction updates using List.reverseRecOn with
  | nil => exact ⟨rfl, rfl⟩
  | append_singleton updates tokens ih =>
    rw [after_append, update, decodeAll_eq ih.1 ih.2]
    constructor <;> simp [textOf]

/-- **When an update opens the guard**: an occurrence of the marker ends after the text before the
update and after the text of the first `minTokens` tokens. -/
theorem update_closed_iff (hm : marker ≠ []) (updates : List (List Text)) (tokens : List Text) :
    (after minTokens stop marker (updates ++ [tokens])).reasoningClosed = true ↔
      (after minTokens stop marker updates).reasoningClosed = true ∨
        ∃ i, OccursAt marker (textOf (updates ++ [tokens])) i ∧
          (textOf updates).length < i + marker.length ∧
          protectedLength minTokens (updates ++ [tokens]).flatten < i + marker.length := by
  obtain ⟨hmin, hguard, hend⟩ := armed_after minTokens stop marker updates
  obtain ⟨htext, hcount⟩ := run_text minTokens stop marker updates
  have hpos : 0 < marker.length := List.length_pos_iff.mpr hm
  rw [after_append, update, Bool.or_eq_true, findMarker, decodeAll_eq htext hcount,
    hguard, hend, hmin]
  cases (after minTokens stop marker updates).reasoningClosed with
  | true => simp
  | false =>
    simp only [Bool.not_false, Bool.and_true, if_true, Bool.false_eq_true, false_or,
      isSome_find_iff]
    refine exists_congr fun i => ?_
    rw [show (updates.flatten ++ tokens).flatten = textOf (updates ++ [tokens]) by simp [textOf],
      show updates.flatten ++ tokens = (updates ++ [tokens]).flatten by simp]
    have hlen : (textOf updates).length = updates.flatten.flatten.length := rfl
    constructor
    · rintro ⟨hle, ho⟩
      exact ⟨ho, by omega, by omega⟩
    · rintro ⟨ho, h1, h2⟩
      exact ⟨by omega, ho⟩

/-- In the first update at whose end the output contains the marker, some occurrence of the marker
ends after the text of the first `minTokens` tokens. -/
def MarkerSeen (updates : List (List Text)) : Prop :=
  ∀ before tokens, before ++ [tokens] <+: updates → ¬ marker <:+: textOf before →
    marker <:+: textOf (before ++ [tokens]) →
      ∃ i, OccursAt marker (textOf (before ++ [tokens])) i ∧
        protectedLength minTokens (before ++ [tokens]).flatten < i + marker.length

/-- **When the guard opens.** After every update of a run it is open exactly if the output contains
the marker, so with the first update at whose end it does and whatever the chunks were, if and only
if in that update the marker is not within the first `minTokens` tokens. -/
theorem opens_iff (hm : marker ≠ []) (updates : List (List Text)) :
    (∀ before, before <+: updates →
      ((after minTokens stop marker before).reasoningClosed = true ↔ marker <:+: textOf before)) ↔
      MarkerSeen minTokens marker updates := by
  constructor
  · intro h before tokens hp hno hyes
    have hclosed := (h _ hp).mpr hyes
    rw [update_closed_iff minTokens stop marker hm] at hclosed
    rcases hclosed with hc | ⟨i, ho, -, hi⟩
    · exact absurd ((h before ((List.prefix_append _ _).trans hp)).mp hc) hno
    · exact ⟨i, ho, hi⟩
  · intro h before
    induction before using List.reverseRecOn with
    | nil =>
      intro _
      simp [after, armed, textOf, hm]
    | append_singleton before tokens ih =>
      intro hp
      rw [update_closed_iff minTokens stop marker hm, ih ((List.prefix_append _ _).trans hp)]
      constructor
      · rintro (hc | ⟨i, ho, -⟩)
        · rw [textOf_append]
          exact hc.trans (List.prefix_append _ _).isInfix
        · exact isInfix_iff_occursAt.mpr ⟨i, ho⟩
      · intro hyes
        by_cases hno : marker <:+: textOf before
        · exact Or.inl hno
        obtain ⟨i, ho, hi⟩ := h before tokens hp hno hyes
        refine Or.inr ⟨i, ho, ?_, hi⟩
        by_contra hle
        rw [textOf_append] at ho
        exact hno (isInfix_iff_occursAt.mpr ⟨i, ho.of_append (not_lt.mp hle)⟩)

/-- Without `min_tokens` the guard opens as it should. -/
theorem markerSeen_zero (hm : marker ≠ []) (updates : List (List Text)) :
    MarkerSeen 0 marker updates := by
  intro before tokens _ _ hyes
  obtain ⟨i, ho⟩ := isInfix_iff_occursAt.mp hyes
  have hpos : 0 < marker.length := List.length_pos_iff.mpr hm
  refine ⟨i, ho, ?_⟩
  rw [protectedLength, List.take_zero, List.flatten_nil]
  exact Nat.lt_add_left i hpos

end Run

/-- `</think>`. -/
def thinkEnd : Text := ['<', '/', 't', 'h', 'i', 'n', 'k', '>']

/-- The marker over two updates, after a token. -/
def twoUpdates : List (List Text) := [[['a'], ['<', '/', 't', 'h']], [['i', 'n', 'k', '>'], ['b']]]

theorem markerSeen_twoUpdates : MarkerSeen 1 thinkEnd twoUpdates := by
  intro before tokens hp _ hyes
  rcases before with _ | ⟨first, _ | ⟨second, rest⟩⟩
  · obtain ⟨rfl, -⟩ := List.cons_prefix_cons.mp hp
    exact absurd hyes (by decide)
  · obtain ⟨rfl, hrest⟩ := List.cons_prefix_cons.mp hp
    obtain ⟨rfl, -⟩ := List.cons_prefix_cons.mp hrest
    exact ⟨1, by decide, by decide⟩
  · have hlen := hp.length_le
    simp [twoUpdates] at hlen

theorem opens_two :
    (after 1 [['b']] thinkEnd twoUpdates).reasoningClosed = true ↔
      thinkEnd <:+: textOf twoUpdates :=
  (opens_iff 1 [['b']] thinkEnd (by decide) _).mpr markerSeen_twoUpdates _ (List.prefix_refl _)

/-- With `min_tokens` 3, an update of the marker and two tokens more: the guard stays closed. -/
theorem opens_missed :
    let updates : List (List Text) := [[thinkEnd, ['a', 'b'], ['c', 'd', 'e', 'f', 'g', 'h']]]
    thinkEnd <:+: textOf updates ∧ (after 3 [['b']] thinkEnd updates).reasoningClosed = false := by
  decide

end Glm53Serve.Detokenizer
