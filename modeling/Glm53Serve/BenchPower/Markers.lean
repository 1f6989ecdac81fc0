import Glm53Serve.Py.Text
import Mathlib.Data.List.Chain

/-!
# Marker files

`tools/bench-power.py` lets another program put labels into a power log: it appends
lines to a file, and the sampler polls the file once per sample, from the offset the
previous poll returned (`read_marker_lines`, `Sampler._poll_markers`).

## The model

A poll sees the whole content of the file at that moment, or cannot read it. A marker
record carries the time, the phase and the label; only the labels depend on the file,
so the sink is the list of labels. `fileMarkers` is what the tailing is for: the
labels of a file, as one reading of its complete part finds them.

## What is proved

* `Tailed.poll` — a poll that is `CleanPoll` brings the sampler from the markers of
  the file as the previous poll saw it to the markers of the file as it is now.
* `readMarkerLines_midline` — a poll that lands inside a line, after complete new
  lines, puts the partial line in front of the first new one and reads the two as one.
* `pollMarkers_run` — if no poll does so, any number of polls of a growing file loses,
  invents and merges nothing.
-/

namespace Glm53Serve.BenchPower

open Py

/-- The label of a line: decoded, stripped, and cut to 200 characters; none if blank. -/
def markerLabel (raw : Bytes) : Option Text :=
  let label := strip (decode raw)
  if label = [] then none else some (label.take 200)

/-- The labels of a chunk, line by line. -/
def markerLabels (chunk : Bytes) : List Text := (splitlines chunk).filterMap markerLabel

/-- `read_marker_lines(path, offset)`: the labels of the lines appended since `offset`,
and the offset for the next call. `path` is the content of the file, `none` where
`stat` or `open` raises. -/
def readMarkerLines (path : Option Bytes) (offset : ℕ) : List Text × ℕ :=
  match path with
  | none => ([], offset)
  | some file =>
    -- the file was truncated or replaced: start over
    let offset := if file.length < offset then 0 else offset
    if file.length = offset then ([], offset)
    else
      let chunk := file.drop offset
      if chunk.getLast? = some lf then (markerLabels chunk, offset + chunk.length)
      else
        match rfind lf chunk with
        | none => ([], offset)
        | some cut =>
          let carry := chunk.drop (cut + 1)
          (markerLabels (carry ++ chunk.take (cut + 1)), offset + cut + 1)

/-- What the sampler keeps of the marker file. -/
structure Sampler where
  /-- Where the next poll starts. -/
  markersOffset : ℕ
  /-- The labels of the marker records written so far. -/
  sink : List Text
  deriving DecidableEq

/-- A sampler that has polled nothing. -/
def Sampler.init : Sampler := ⟨0, []⟩

/-- `Sampler._poll_markers`. -/
def Sampler.pollMarkers (s : Sampler) (path : Option Bytes) : Sampler :=
  let (lines, offset) := readMarkerLines path s.markersOffset
  { markersOffset := offset, sink := s.sink ++ lines }

/-- The sampler after polling the file with each of these contents in turn. -/
def Sampler.run (polls : List Bytes) : Sampler :=
  polls.foldl (fun s file => s.pollMarkers (some file)) .init

/-! ### What the tailing is for -/

/-- The markers of a file: the labels of its complete lines. -/
def fileMarkers (file : Bytes) : List Text := markerLabels (completePart file)

/-- The sampler is where the file is complete, and has its markers. -/
structure Tailed (file : Bytes) (s : Sampler) : Prop where
  offset : s.markersOffset = (completePart file).length
  sink : s.sink = fileMarkers file

/-- A poll that does not land inside a line after complete new lines: the file ends
with a line feed, or no line of it is complete that was not at the poll before. -/
def CleanPoll (prev file : Bytes) : Prop :=
  file.getLast? = some lf ∨ completePart file = completePart prev

instance (prev file : Bytes) : Decidable (CleanPoll prev file) :=
  inferInstanceAs (Decidable (_ ∨ _))

theorem tailed_init : Tailed [] .init := ⟨rfl, rfl⟩

/-- The markers of complete lines and of what follows them. -/
theorem markerLabels_append {as : Bytes} (h : Complete as) (bs : Bytes) :
    markerLabels (as ++ bs) = markerLabels as ++ markerLabels bs := by
  rw [markerLabels, splitlines_append h, List.filterMap_append]
  rfl

/-- A carriage return at the end of a line is stripped. -/
theorem markerLabel_append_cr (raw : Bytes) : markerLabel (raw ++ [cr]) = markerLabel raw := by
  have hd : decode (raw ++ [cr]) = decode raw ++ ['\r'] := decode_append_ascii (by decide) raw
  rw [markerLabel, hd, strip_append_space (by decide), markerLabel]

/-- Where every carriage return of the complete part belongs to a `\r\n`, the markers of a file
are those of the lines that its line feeds end. -/
theorem fileMarkers_eq_newlineLines {file : Bytes} (h : CrLf (completePart file)) :
    fileMarkers file = (newlineLines file).filterMap markerLabel := by
  rw [fileMarkers, markerLabels, ← newlineLines_completePart]
  exact (filterMap_newlineLines markerLabel_append_cr h
    (completePart_complete file)).symm

/-! ### One poll -/

theorem getLast?_append_of_ne_nil {α : Type*} (as : List α) {bs : List α} (h : bs ≠ []) :
    (as ++ bs).getLast? = bs.getLast? := by
  simp [List.getLast?_append, List.getLast?_eq_getLast_of_ne_nil h]

theorem complete_of_getLast? {bs : Bytes} (h : bs.getLast? = some lf) : Complete bs := by
  obtain ⟨as, rfl⟩ := List.getLast?_eq_some_iff.mp h
  exact Or.inr ⟨as, rfl⟩

/-- What a clean poll reads after complete lines `done`: the markers of the complete
part of the new bytes. -/
theorem readMarkerLines_clean (done chunk : Bytes)
    (h : chunk.getLast? = some lf ∨ completePart chunk = []) :
    readMarkerLines (some (done ++ chunk)) done.length =
      (markerLabels (completePart chunk), done.length + (completePart chunk).length) := by
  by_cases hnil : chunk = []
  · subst hnil
    simp [readMarkerLines, completePart, rfind, markerLabels]
  have hpos : chunk.length ≠ 0 := by simpa using hnil
  simp only [readMarkerLines, List.length_append,
    show ¬ done.length + chunk.length < done.length by omega,
    if_false, show ¬ done.length + chunk.length = done.length by omega, List.drop_left]
  split_ifs with hend
  · rw [completePart_eq_self (complete_of_getLast? hend)]
  · have hc := h.resolve_left hend
    rw [rfind_eq_none_iff.mpr (completePart_eq_nil_iff.mp hc), hc]
    rfl

/-- **What a poll does inside a line**: after complete new lines, the partial line
`tail` is read in front of the first of them, and the offset says it was not read. -/
theorem readMarkerLines_midline (done as tail : Bytes) (hne : tail ≠ []) (hlf : lf ∉ tail) :
    readMarkerLines (some (done ++ (as ++ [lf] ++ tail))) done.length =
      (markerLabels (tail ++ (as ++ [lf])), done.length + as.length + 1) := by
  have hlast : (as ++ [lf] ++ tail).getLast? ≠ some lf := by
    rw [getLast?_append_of_ne_nil _ hne]
    exact fun e => hlf (List.mem_of_getLast? e)
  have hr : rfind lf (as ++ [lf] ++ tail) = some as.length := by
    simp [rfind_append, rfind_eq_none_iff.mpr hlf, rfind]
  have hlen : (done ++ (as ++ [lf] ++ tail)).length = done.length +
      (as.length + 1 + tail.length) := by
    simp; omega
  simp only [readMarkerLines, hlen, show ¬ done.length + (as.length + 1 + tail.length) <
    done.length by omega,
    if_false, show ¬ done.length + (as.length + 1 + tail.length) =
      done.length by omega, List.drop_left,
    if_neg hlast, hr]
  rw [List.drop_left' (by simp), List.take_left' (by simp)]

/-- A clean poll of a growing file keeps the sampler in step with it. -/
theorem Tailed.poll {prev file : Bytes} {s : Sampler} (h : Tailed prev s) (hgrow : prev <+: file)
    (hclean : CleanPoll prev file) : Tailed file (s.pollMarkers (some file)) := by
  have hdone := completePart_complete prev
  obtain ⟨chunk, rfl⟩ := (completePart_prefixOf prev).trans hgrow
  have hsplit := completePart_append hdone chunk
  have hchunk : chunk.getLast? = some lf ∨ completePart chunk = [] := by
    rcases hclean with hend | hsame
    · by_cases hnil : chunk = []
      · exact Or.inr (by rw [hnil]; rfl)
      · exact Or.inl (by rwa [getLast?_append_of_ne_nil _ hnil] at hend)
    · rw [hsplit] at hsame
      exact Or.inr (List.append_right_eq_self.mp hsame)
  have hread := readMarkerLines_clean (completePart prev) chunk hchunk
  rw [← h.offset] at hread
  constructor
  · rw [Sampler.pollMarkers, hread, hsplit, List.length_append, h.offset]
  · rw [Sampler.pollMarkers, hread, fileMarkers, hsplit, markerLabels_append hdone, h.sink]
    rfl

/-! ### Any number of polls -/

theorem tailed_foldl (polls : List Bytes) : ∀ (prev : Bytes) (s : Sampler), Tailed prev s →
    (prev :: polls).IsChain (· <+: ·) → (prev :: polls).IsChain CleanPoll →
    Tailed ((prev :: polls).getLast (List.cons_ne_nil _ _))
      (polls.foldl (fun s file => s.pollMarkers (some file)) s) := by
  induction polls with
  | nil => intro prev s h _ _; exact h
  | cons file polls ih =>
    intro prev s h hgrow hclean
    rw [List.isChain_cons_cons] at hgrow hclean
    exact ih file _ (h.poll hgrow.1 hclean.1) hgrow.2 hclean.2

/-- **Marker tailing loses, invents and merges nothing**: over any polls of a growing
file, none of which lands inside a line after complete new lines, the sink holds the
markers of the file as the last poll saw it; and these are the labels of the lines its
line feeds end, if these have no carriage return but in `\r\n`. -/
theorem pollMarkers_run (polls : List Bytes) (hgrow : ([] :: polls).IsChain (· <+: ·))
    (hclean : ([] :: polls).IsChain CleanPoll) :
    (Sampler.run polls).sink = fileMarkers (polls.getLastD []) ∧
      (CrLf (completePart (polls.getLastD [])) →
        (Sampler.run polls).sink = (newlineLines (polls.getLastD [])).filterMap markerLabel) := by
  have h := (tailed_foldl polls [] .init tailed_init hgrow hclean).sink
  have hlast : ([] :: polls).getLast (List.cons_ne_nil _ _) = polls.getLastD [] := by
    cases polls <;> rfl
  rw [hlast] at h
  exact ⟨h, fun hcr => h.trans (fileMarkers_eq_newlineLines hcr)⟩

/-- Three polls, of `a⏎`, of `a⏎b` and of `a⏎b⏎`. -/
theorem pollMarkers_run_three :
    (Sampler.run [[0x61, 10], [0x61, 10, 0x62], [0x61, 10, 0x62, 10]]).sink = [['a'], ['b']] := by
  have h := (pollMarkers_run [[0x61, 10], [0x61, 10, 0x62], [0x61, 10, 0x62, 10]]
    (by decide) (by decide)).1
  rw [h]
  decide

/-- Two polls, of `a⏎b` and of `a⏎b⏎`: the first one lands inside the second line, and
its label is `ba`. -/
theorem pollMarkers_run_midline :
    ([] :: [[0x61, 10, 0x62], [0x61, 10, 0x62, 10]] : List Bytes).IsChain (· <+: ·) ∧
      (Sampler.run [[0x61, 10, 0x62], [0x61, 10, 0x62, 10]]).sink = [['b', 'a'], ['b']] ∧
      (newlineLines [0x61, 10, 0x62, 10]).filterMap markerLabel = [['a'], ['b']] := by
  refine ⟨by decide, by decide, by decide⟩

end Glm53Serve.BenchPower
