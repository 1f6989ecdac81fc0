import Glm53Serve.Py.Lines
import Mathlib.Data.PNat.Basic

/-!
# The tail of a log

`read_tail` of `scripts/prefill-watchdog.py` reads a log from its end, block by block,
until it has more line feeds than the lines it is asked for, and returns the last lines of
what it read.

## The model

A file is its bytes, `none` where it cannot be opened or read; it does not change while it
is read. The size of a block is a parameter.

## What is proved

* `tailData_spec` — the loop ends with a suffix of the file: all of it, or one with more
  line feeds than lines wanted.
* `readTail_eq` — the lines returned are the last lines of the whole file, however the
  blocks cut characters and lines.
-/

namespace Glm53Serve.Watchdog

open Py

/-- What `read_tail` raises. -/
inductive TailError where
  /-- `--tail-lines must be >= 1`. -/
  | tailLines
  /-- `cannot read …`. -/
  | cannotRead
  deriving DecidableEq

/-- The loop of `read_tail`: `stop` is `end`, where the bytes read so far begin. -/
def tailData (file : Bytes) (maxLines : ℕ) (block : ℕ+) (stop : ℕ) (data : Bytes) : Bytes :=
  if 0 < stop ∧ data.count lf ≤ maxLines then
    let step := min (block : ℕ) stop
    tailData file maxLines block (stop - step) ((file.drop (stop - step)).take step ++ data)
  else data
termination_by stop
decreasing_by
  have hblock := block.pos
  omega

/-- `read_tail(path, max_lines)`, reading blocks of `block` bytes (`64 * 1024`). -/
def readTail (block : ℕ+) (path : Option Bytes) (maxLines : ℤ) : Except TailError (List Text) :=
  if maxLines < 1 then .error .tailLines
  else
    match path with
    | none => .error .cannotRead
    | some file =>
      let data := tailData file maxLines.toNat block file.length []
      let text := decode data
      .ok (lastItems maxLines.toNat (strSplitlines text))

/-- What is in front of a suffix, and then the suffix. -/
theorem take_drop_append {α : Type*} (l : List α) {step stop : ℕ} (h : step ≤ stop) :
    (l.drop (stop - step)).take step ++ l.drop stop = l.drop (stop - step) := by
  conv_rhs => rw [← List.take_append_drop step (l.drop (stop - step))]
  rw [List.drop_drop, Nat.sub_add_cancel h]

/-- The loop reads a suffix of the file, and stops before its start only with more line
feeds than lines wanted. -/
theorem tailData_spec (file : Bytes) (maxLines : ℕ) (block : ℕ+) (stop : ℕ) :
    ∃ start, tailData file maxLines block stop (file.drop stop) = file.drop start ∧
      (start = 0 ∨ maxLines < (file.drop start).count lf) := by
  induction stop using Nat.strong_induction_on with
  | _ stop ih =>
    rw [tailData]
    split_ifs with h
    · have hblock := block.pos
      simp only [take_drop_append file (min_le_right (block : ℕ) stop)]
      exact ih (stop - min (block : ℕ) stop) (by omega)
    · refine ⟨stop, rfl, ?_⟩
      by_cases hstop : 0 < stop
      · exact .inr (not_le.mp fun hcount => h ⟨hstop, hcount⟩)
      · exact .inl (by omega)

/-- A suffix with more line feeds than lines wanted has the last lines of the whole. -/
theorem lastItems_suffix {n : ℕ} (front : Bytes) {data : Bytes} (h : n < data.count lf) :
    lastItems n (strSplitlines (decode data)) =
      lastItems n (strSplitlines (decode (front ++ data))) := by
  have hmem : lf ∈ data := List.count_pos_iff.mp (by omega)
  -- after the first line feed the two texts are split alike, into enough lines
  obtain ⟨as, bs, rfl, has⟩ := List.eq_append_cons_of_mem hmem
  have hcount : n ≤ bs.count lf := by
    rw [List.count_append, List.count_cons_self, List.count_eq_zero.mpr has] at h
    omega
  have hlen := hcount.trans (count_lf_le_length bs)
  have hsplit : ∀ front : Bytes, lastItems n (strSplitlines (decode (front ++ lf :: bs))) =
      lastItems n (strSplitlines (decode bs)) := by
    intro front
    rw [decode_append_lf, strSplitlines_append_lf, lastItems_append _ hlen]
  rw [hsplit, ← List.append_assoc, hsplit]

/-- **The tail is that of the whole file**, for every content and every size of a block. -/
theorem readTail_eq (block : ℕ+) (file : Bytes) {maxLines : ℤ} (h : 1 ≤ maxLines) :
    readTail block (some file) maxLines =
      .ok (lastItems maxLines.toNat (strSplitlines (decode file))) := by
  obtain ⟨start, hdata, hstop⟩ := tailData_spec file maxLines.toNat block file.length
  rw [List.drop_length] at hdata
  rw [readTail, if_neg (not_lt.mpr h)]
  simp only [hdata]
  rcases hstop with rfl | hcount
  · rw [List.drop_zero]
  · rw [lastItems_suffix (file.take start) hcount, List.take_append_drop]

/-- Blocks of two bytes that cut a character and a line end. -/
theorem readTail_eq_cut :
    readTail 2 (some [0x61, 0x0D, 0x0A, 0xE2, 0x82, 0xAC, 0x0A, 0xFF, 0x0B, 0x62, 0x0A]) 2 =
      .ok [[replacement], ['b']] := by
  rw [readTail_eq 2 _ (by decide)]
  decide

end Glm53Serve.Watchdog
