import Glm53Serve.Ablit.Transplant
import Glm53Serve.Lib.MapM

/-!
# `ABLIT_LAYERS`

The setting is read twice: by `ablit/fetch_transplant.py`, which fetches the tensors, and
by `overlay/ablit_runtime.py`, which replaces the weights by them. The one is to have the
same grammar as the other.

## The model

`parseEntries` is the loop that both share; an entry is read by `Ablit.parsePart` on one
side, and by `Runtime.parsePart` on the other.

## What is proved

* `parsePart_ok_iff`, `Runtime.parsePart_ok_iff` — the entries that the two accept: a layer,
  a range, and on the side of the fetch also a range without an end.
* `parseLayers_agree_iff` — for which strings the two agree.
-/

namespace Glm53Serve.Ablit

open Py

/-- The entries of the setting that are not empty. -/
def entries (spec : Text) : List Text := ((spec.splitOn ',').map strip).filter (· ≠ [])

/-- The loop over the entries, with what reads an entry and the error for no layer. -/
def parseEntries {ε : Type} (parse : Text → Except ε (List ℤ)) (emptySet : ε) (spec : Text) :
    Except ε (List ℤ) := do
  let layers ← (entries spec).mapM parse
  if layers.flatten = [] then .error emptySet else .ok (sortedSet layers.flatten)

theorem parseLayers_eq (spec : Text) : parseLayers spec = parseEntries parsePart .emptySet spec :=
  rfl

/-- `range(a, b + 1)`. -/
def layerRange (a b : ℤ) : List ℤ := (List.range (b + 1 - a).toNat).map fun i : ℕ => a + (i : ℤ)

namespace Runtime

/-- The `AblitError`s of `parse_layers`. -/
inductive LayersError where
  /-- "ABLIT_LAYERS: bad range {part!r}". -/
  | badRange (part : Text)
  /-- "ABLIT_LAYERS: inverted range {part!r}". -/
  | inverted (part : Text)
  /-- "ABLIT_LAYERS: bad index {part!r}". -/
  | badIndex (part : Text)
  /-- "ABLIT_LAYERS resolved to an empty set". -/
  | emptySet
  deriving DecidableEq

/-- The layers of one entry. -/
def parsePart (part : Text) : Except LayersError (List ℤ) :=
  if '-' ∈ part then
    let loS := part.takeWhile (· ≠ '-')
    let hiS := (part.dropWhile (· ≠ '-')).drop 1
    match Py.int loS, Py.int hiS with
    | some lo, some hi =>
      if hi < lo then .error (.inverted part)
      else .ok (layerRange lo hi)
    | _, _ => .error (.badRange part)
  else
    match Py.int part with
    | some n => .ok [n]
    | none => .error (.badIndex part)

/-- `parse_layers(spec)` of `ablit_runtime.py`. -/
def parseLayers (spec : Text) : Except LayersError (List ℤ) := parseEntries parsePart .emptySet spec

example : parseLayers ['1', '5', ',', '1', '7', '-', '1', '9'] = .ok [15, 17, 18, 19] := by decide

end Runtime

/-! ### The grammar of an entry -/

/-- What both sides are to accept: a layer, or a range that is not empty. -/
inductive Entry : Text → List ℤ → Prop where
  /-- `n`. -/
  | index {t : Text} {n : ℤ} : '-' ∉ t → Py.int t = some n → Entry t [n]
  /-- `a-b`. -/
  | range {lo hi : Text} {a b : ℤ} : '-' ∉ lo → Py.int lo = some a → Py.int hi = some b → a ≤ b →
      Entry (lo ++ '-' :: hi) (layerRange a b)

/-- A range without an end, from the layer `n`. -/
def OpenRange (t : Text) (n : ℤ) : Prop := ∃ lo, '-' ∉ lo ∧ Py.int lo = some n ∧ t = lo ++ ['-']

theorem exists_dash {t : Text} (h : '-' ∈ t) : ∃ lo hi, '-' ∉ lo ∧ t = lo ++ '-' :: hi := by
  induction t with
  | nil => cases h
  | cons c t ih =>
    by_cases hc : c = '-'
    · exact ⟨[], t, by simp, by rw [hc]; rfl⟩
    · obtain ⟨lo, hi, hlo, rfl⟩ := ih ((List.mem_cons.mp h).resolve_left (Ne.symm hc))
      exact ⟨c :: lo, hi, by simp [Ne.symm hc, hlo], rfl⟩

theorem takeWhile_dash {lo : Text} (h : '-' ∉ lo) (hi : Text) :
    (lo ++ '-' :: hi).takeWhile (· ≠ '-') = lo := by
  rw [List.takeWhile_append_of_pos fun c hc => by simpa using fun he : c = '-' => h (he ▸ hc)]
  simp

theorem dropWhile_dash {lo : Text} (h : '-' ∉ lo) (hi : Text) :
    (lo ++ '-' :: hi).dropWhile (· ≠ '-') = '-' :: hi := by
  rw [List.dropWhile_append_of_pos fun c hc => by simpa using fun he : c = '-' => h (he ▸ hc)]
  simp

theorem append_dash_inj {lo lo' hi hi' : Text} (h : '-' ∉ lo) (h' : '-' ∉ lo')
    (he : lo ++ '-' :: hi = lo' ++ '-' :: hi') : lo = lo' ∧ hi = hi' := by
  have ht := congrArg (List.takeWhile (· ≠ '-')) he
  have hd := congrArg (List.dropWhile (· ≠ '-')) he
  rw [takeWhile_dash h, takeWhile_dash h'] at ht
  rw [dropWhile_dash h, dropWhile_dash h'] at hd
  exact ⟨ht, List.tail_eq_of_cons_eq hd⟩

theorem entry_index_iff {t : Text} (h : '-' ∉ t) {ls : List ℤ} :
    Entry t ls ↔ ∃ n, Py.int t = some n ∧ ls = [n] := by
  constructor
  · intro he
    cases he with
    | index _ hn => exact ⟨_, hn, rfl⟩
    | range _ _ _ _ => simp at h
  · rintro ⟨n, hn, rfl⟩
    exact .index h hn

theorem entry_range_iff {lo hi : Text} (h : '-' ∉ lo) {ls : List ℤ} :
    Entry (lo ++ '-' :: hi) ls ↔
      ∃ a b, Py.int lo = some a ∧ Py.int hi = some b ∧ a ≤ b ∧ ls = layerRange a b := by
  constructor
  · intro he
    generalize ht : lo ++ '-' :: hi = t at he
    cases he with
    | index h' _ => exact absurd (by simp [← ht]) h'
    | range h' ha hb hle =>
      obtain ⟨rfl, rfl⟩ := append_dash_inj h h' ht
      exact ⟨_, _, ha, hb, hle, rfl⟩
  · rintro ⟨a, b, ha, hb, hle, rfl⟩
    exact .range h ha hb hle

theorem openRange_iff {lo hi : Text} (h : '-' ∉ lo) {n : ℤ} :
    OpenRange (lo ++ '-' :: hi) n ↔ Py.int lo = some n ∧ hi = [] := by
  constructor
  · rintro ⟨lo', h', hn, he⟩
    obtain ⟨rfl, rfl⟩ := append_dash_inj h h' he
    exact ⟨hn, rfl⟩
  · rintro ⟨hn, rfl⟩
    exact ⟨lo, h, hn, rfl⟩

theorem OpenRange.dash_mem {t : Text} {n : ℤ} (h : OpenRange t n) : '-' ∈ t := by
  obtain ⟨lo, -, -, rfl⟩ := h
  simp

theorem int_nil : Py.int [] = none := by decide

/-- An entry of the grammar has its end written. -/
theorem Entry.not_openRange {t : Text} {ls : List ℤ} (h : Entry t ls) (n : ℤ) :
    ¬ OpenRange t n := by
  intro ho
  cases h with
  | index hd _ => exact hd ho.dash_mem
  | range hd _ hb _ =>
    rw [openRange_iff hd] at ho
    rw [ho.2, int_nil] at hb
    cases hb

@[simp] theorem mem_layerRange {a b n : ℤ} : n ∈ layerRange a b ↔ a ≤ n ∧ n ≤ b := by
  rw [layerRange, List.mem_map]
  constructor
  · rintro ⟨i, hi, rfl⟩
    rw [List.mem_range] at hi
    omega
  · rintro ⟨ha, hb⟩
    refine ⟨(n - a).toNat, ?_, by omega⟩
    rw [List.mem_range]
    omega

theorem layerRange_self (n : ℤ) : layerRange n n = [n] := by
  simp [layerRange]

theorem layerRange_ne_nil {a b : ℤ} (h : a ≤ b) : layerRange a b ≠ [] :=
  List.ne_nil_of_mem (mem_layerRange.mpr ⟨le_rfl, h⟩)

theorem Entry.ne_nil {t : Text} {ls : List ℤ} (h : Entry t ls) : ls ≠ [] := by
  cases h with
  | index => exact List.cons_ne_nil _ _
  | range _ _ _ hle => exact layerRange_ne_nil hle

/-! ### What the two accept -/

/-- `ablit_runtime.py` accepts the grammar. -/
theorem Runtime.parsePart_ok_iff {t : Text} {ls : List ℤ} : Runtime.parsePart t = .ok ls ↔
    Entry t ls := by
  by_cases hd : '-' ∈ t
  · obtain ⟨lo, hi, hlo, rfl⟩ := exists_dash hd
    simp only [Runtime.parsePart, if_pos hd, entry_range_iff hlo, takeWhile_dash hlo,
      dropWhile_dash hlo, List.drop_one, List.tail_cons]
    cases Py.int lo with
    | none => simp
    | some a =>
      cases Py.int hi with
      | none => simp
      | some b =>
        by_cases hlt : b < a
        · simp [hlt]
        · simp [hlt, not_lt.mp hlt, eq_comm]
  · rw [Runtime.parsePart, if_neg hd, entry_index_iff hd]
    cases Py.int t with
    | none => simp
    | some n => simp [eq_comm]

/-- The range of `fetch_transplant.py`. -/
theorem range_map_eq (a b : ℤ) :
    ((List.range (b + 1 - a).toNat).map fun i => a + i) = layerRange a b := by
  simp [layerRange, ← List.map_eq_flatMap]

/-- An entry without a dash, as `fetch_transplant.py` cuts it. -/
theorem parsePart_index {t : Text} (h : '-' ∉ t) {ls : List ℤ} :
    parsePart t = .ok ls ↔ ∃ n, Py.int t = some n ∧ ls = [n] := by
  have htake : t.takeWhile (· ≠ '-') = t := List.takeWhile_eq_self_iff.mpr fun c hc => by
    simpa using fun he : c = '-' => h (he ▸ hc)
  have hdrop : t.dropWhile (· ≠ '-') = [] := List.dropWhile_eq_nil_iff.mpr fun c hc => by
    simpa using fun he : c = '-' => h (he ▸ hc)
  simp only [parsePart, htake, hdrop, List.drop_nil, if_true, range_map_eq]
  cases Py.int t with
  | none => simp
  | some n => simp [layerRange_self, eq_comm]

/-- An entry with a dash. -/
theorem parsePart_range {lo hi : Text} (h : '-' ∉ lo) {ls : List ℤ} :
    parsePart (lo ++ '-' :: hi) = .ok ls ↔
      ∃ a b, Py.int lo = some a ∧ Py.int (if hi = [] then lo else hi) = some b ∧ a ≤ b ∧
        ls = layerRange a b := by
  simp only [parsePart, takeWhile_dash h, dropWhile_dash h, List.drop_one, List.tail_cons,
    range_map_eq]
  cases Py.int lo with
  | none => simp
  | some a =>
    cases Py.int (if hi = [] then lo else hi) with
    | none => simp
    | some b =>
      by_cases hlt : b < a
      · simp [hlt]
      · simp [hlt, not_lt.mp hlt, eq_comm]

/-- `fetch_transplant.py` accepts the grammar, and a range without an end, which it takes
for its first layer. -/
theorem parsePart_ok_iff {t : Text} {ls : List ℤ} :
    parsePart t = .ok ls ↔ Entry t ls ∨ ∃ n, OpenRange t n ∧ ls = [n] := by
  by_cases hd : '-' ∈ t
  · obtain ⟨lo, hi, hlo, rfl⟩ := exists_dash hd
    simp only [parsePart_range hlo, entry_range_iff hlo, openRange_iff hlo]
    by_cases hh : hi = []
    · subst hh
      simp only [if_true, int_nil]
      constructor
      · rintro ⟨a, b, ha, hb, -, rfl⟩
        obtain rfl := Option.some.inj (ha.symm.trans hb)
        exact Or.inr ⟨a, ⟨ha, trivial⟩, layerRange_self a⟩
      · rintro (⟨a, b, -, hb, -⟩ | ⟨n, ⟨hn, -⟩, rfl⟩)
        · cases hb
        · exact ⟨n, n, hn, hn, le_rfl, (layerRange_self n).symm⟩
    · simp [hh]
  · have hopen : ∀ n, ¬ OpenRange t n := fun n h => hd h.dash_mem
    simp [parsePart_index hd, entry_index_iff hd, hopen]

/-! ### Agreement -/

theorem parseEntries_ok_iff {ε : Type} {parse : Text → Except ε (List ℤ)} {emptySet : ε}
    {spec : Text}
    {ls : List ℤ} :
    parseEntries parse emptySet spec = .ok ls ↔
      ∃ lss, List.Forall₂ (fun t l => parse t = .ok l) (entries spec) lss ∧ lss.flatten ≠ [] ∧
        ls = sortedSet lss.flatten := by
  simp only [← Except.mapM_ok_iff, parseEntries]
  cases (entries spec).mapM parse with
  | error e => simp [bind, Except.bind]
  | ok lss =>
    simp only [bind, Except.bind, Except.ok.injEq, exists_eq_left']
    by_cases hn : lss.flatten = []
    · simp only [hn, if_true, reduceCtorEq, ne_eq, not_true_eq_false, false_and]
    · rw [if_neg hn, Except.ok.injEq, eq_comm]
      exact ⟨fun h => ⟨hn, h⟩, And.right⟩

/-- The setting is accepted if there is an entry and every entry is accepted. -/
theorem exists_parseEntries_ok_iff {ε : Type} {parse : Text → Except ε (List ℤ)} {emptySet : ε}
    (hne : ∀ t ls, parse t = .ok ls → ls ≠ []) (spec : Text) :
    (∃ ls, parseEntries parse emptySet spec = .ok ls) ↔
      entries spec ≠ [] ∧ ∀ t ∈ entries spec, ∃ ls, parse t = .ok ls := by
  rw [← Except.exists_mapM_ok_iff]
  simp only [parseEntries_ok_iff, Except.mapM_ok_iff]
  constructor
  · rintro ⟨ls, lss, h, hn, -⟩
    refine ⟨fun he => hn ?_, lss, h⟩
    rw [he, List.forall₂_nil_left_iff] at h
    rw [h, List.flatten_nil]
  · rintro ⟨he, lss, h⟩
    refine ⟨_, lss, h, fun hf => ?_, rfl⟩
    obtain ⟨t, ts, hts⟩ := List.exists_cons_of_ne_nil he
    rw [hts, List.forall₂_cons_left_iff] at h
    obtain ⟨l, ls, ht, -, rfl⟩ := h
    exact hne t l ht (List.append_eq_nil_iff.mp hf).1

theorem Runtime.parsePart_ne_nil (t : Text) (ls : List ℤ)
    (h : Runtime.parsePart t = .ok ls) : ls ≠ [] :=
  (Runtime.parsePart_ok_iff.mp h).ne_nil

theorem parsePart_ne_nil (t : Text) (ls : List ℤ) (h : parsePart t = .ok ls) : ls ≠ [] := by
  rcases parsePart_ok_iff.mp h with he | ⟨n, -, rfl⟩
  · exact he.ne_nil
  · exact List.cons_ne_nil _ _

/-- What `ablit_runtime.py` accepts, `fetch_transplant.py` accepts, with the same layers. -/
theorem parseLayers_of_runtime {spec : Text} {ls : List ℤ} (h : Runtime.parseLayers spec = .ok ls) :
    parseLayers spec = .ok ls := by
  obtain ⟨lss, hf, hn, rfl⟩ := parseEntries_ok_iff.mp h
  refine parseEntries_ok_iff.mpr ⟨lss, hf.imp fun t l ht => ?_, hn, rfl⟩
  exact parsePart_ok_iff.mpr (Or.inl (Runtime.parsePart_ok_iff.mp ht))

/-- Both raise their error, or both return the same list. -/
def Agree (spec : Text) : Prop :=
  (∃ e e', parseLayers spec = .error e ∧ Runtime.parseLayers spec = .error e') ∨
    ∃ ls, parseLayers spec = .ok ls ∧ Runtime.parseLayers spec = .ok ls

/-- They differ where the fetch accepts the setting and the runtime refuses it. -/
theorem not_agree_iff (spec : Text) :
    ¬ Agree spec ↔ (∃ ls, parseLayers spec = .ok ls) ∧
      ¬ ∃ ls, Runtime.parseLayers spec = .ok ls := by
  unfold Agree
  cases hr : Runtime.parseLayers spec with
  | ok ls => simp [parseLayers_of_runtime hr]
  | error e' => cases parseLayers spec <;> simp

/-- **Where the two parsers agree**: unless an entry is a range without an end and the
other entries are a layer, a range, or such an entry again. -/
theorem parseLayers_agree_iff (spec : Text) :
    Agree spec ↔ (∀ t ∈ entries spec, ∀ n, ¬ OpenRange t n) ∨
      ∃ t ∈ entries spec, (∀ n, ¬ OpenRange t n) ∧ ∀ ls, ¬ Entry t ls := by
  rw [← not_iff_not, not_agree_iff, parseLayers_eq, Runtime.parseLayers,
    exists_parseEntries_ok_iff parsePart_ne_nil,
      exists_parseEntries_ok_iff Runtime.parsePart_ne_nil]
  simp only [parsePart_ok_iff, Runtime.parsePart_ok_iff]
  push Not
  constructor
  · rintro ⟨⟨hne, hf⟩, hr⟩
    obtain ⟨t, ht, hbad⟩ := hr hne
    obtain ⟨ls, he | ⟨n, ho, -⟩⟩ := hf t ht
    · exact absurd he (hbad ls)
    · refine ⟨⟨t, ht, n, ho⟩, fun t' ht' hno => ?_⟩
      obtain ⟨ls', he' | ⟨n', ho', -⟩⟩ := hf t' ht'
      · exact ⟨ls', he'⟩
      · exact absurd ho' (hno n')
  · rintro ⟨⟨t, ht, n, ho⟩, hall⟩
    refine ⟨⟨List.ne_nil_of_mem ht, fun t' ht' => ?_⟩, fun _ =>
      ⟨t, ht, fun ls he => he.not_openRange n ho⟩⟩
    by_cases hno : ∀ n, ¬ OpenRange t' n
    · obtain ⟨ls, he⟩ := hall t' ht' hno
      exact ⟨ls, Or.inl he⟩
    · push Not at hno
      obtain ⟨n', ho'⟩ := hno
      exact ⟨[n'], Or.inr ⟨n', ho', rfl⟩⟩

/-- `15-`: the fetch takes it for layer 15, the runtime refuses it. -/
theorem parseLayers_differ : ¬ Agree ['1', '5', '-'] := by
  have h : Runtime.parseLayers ['1', '5', '-'] = .error (.badRange ['1', '5', '-']) := by decide
  exact (not_agree_iff _).mpr ⟨⟨[15], by decide⟩, by simp [h]⟩

end Glm53Serve.Ablit
