import Mathlib.Data.List.Basic

/-!
# Scans with reset

A loop that walks over events in order and keeps a list: an event may do nothing,
add an entry, or throw away everything kept so far. `scan` is the loop; what it
returns is what the events after the last reset add.

## What is proved

* `mem_scan` — an entry is returned exactly if some event adds it and no later event
  resets.
* `scan_map` — relabelling the entries of the events relabels the result, so a scan
  may be run on entries that remember where they come from.
* `foldl_eq_scan` — a fold each of whose steps does what its event says is the scan of
  the events.
-/

namespace ResetScan

universe u v w

variable {α : Type u} {β : Type v} {γ : Type w}

/-- What one turn of the loop does to the list kept. -/
inductive Event (β : Type v) where
  /-- Nothing. -/
  | skip
  /-- Throw away what has been kept. -/
  | reset
  /-- Keep one more entry. -/
  | emit (b : β)
  deriving DecidableEq, Repr

/-- The list kept after an event. -/
def Event.apply (kept : List β) : Event β → List β
  | .skip => kept
  | .reset => []
  | .emit b => kept ++ [b]

/-- Relabel an entry. -/
def Event.map (f : β → γ) : Event β → Event γ
  | .skip => .skip
  | .reset => .reset
  | .emit b => .emit (f b)

/-- The loop, from a list already kept. -/
def scanFrom (kept : List β) (events : List (Event β)) : List β := events.foldl Event.apply kept

/-- The loop. -/
def scan (events : List (Event β)) : List β := scanFrom [] events

@[simp] theorem scanFrom_nil (kept : List β) : scanFrom kept [] = kept := rfl

@[simp] theorem scanFrom_cons (kept : List β) (e : Event β) (es : List (Event β)) :
    scanFrom kept (e :: es) = scanFrom (e.apply kept) es := rfl

theorem scanFrom_map (f : β → γ) (events : List (Event β)) (kept : List β) :
    scanFrom (kept.map f) (events.map (Event.map f)) = (scanFrom kept events).map f := by
  induction events generalizing kept with
  | nil => rfl
  | cons e es ih =>
    rw [List.map_cons, scanFrom_cons, scanFrom_cons, ← ih]
    cases e <;> simp [Event.apply, Event.map]

/-- Relabelling commutes with the loop. -/
theorem scan_map (f : β → γ) (events : List (Event β)) :
    scan (events.map (Event.map f)) = (scan events).map f := scanFrom_map f events []

/-- A fold whose steps do what their events say. -/
theorem foldl_eq_scan {step : List β → α → List β} {event : α → Event β}
    (h : ∀ kept a, step kept a = (event a).apply kept) (as : List α) :
    as.foldl step [] = scan (as.map event) := by
  rw [scan, scanFrom, List.foldl_map]
  exact congrArg (fun g => as.foldl g []) (funext fun kept => funext fun a => h kept a)

/-- What was kept before a run of events survives it unless one of them resets. -/
theorem mem_scanFrom {b : β} (events : List (Event β)) (kept : List β) :
    b ∈ scanFrom kept events ↔
      (b ∈ kept ∧ .reset ∉ events) ∨
        ∃ pre suf, events = pre ++ .emit b :: suf ∧ .reset ∉ suf := by
  induction events generalizing kept with
  | nil => simp
  | cons e es ih =>
    rw [scanFrom_cons, ih]
    constructor
    · rintro (⟨hb, hr⟩ | ⟨pre, suf, rfl, hs⟩)
      · cases e with
        | skip => exact Or.inl ⟨hb, by simpa using hr⟩
        | reset => cases hb
        | emit a =>
          rcases List.mem_append.mp hb with hb | hb
          · exact Or.inl ⟨hb, by simpa using hr⟩
          · obtain rfl := List.mem_singleton.mp hb
            exact Or.inr ⟨[], es, rfl, hr⟩
      · exact Or.inr ⟨e :: pre, suf, rfl, hs⟩
    · rintro (⟨hb, hr⟩ | ⟨pre, suf, heq, hs⟩)
      · simp only [List.mem_cons, not_or] at hr
        refine Or.inl ⟨?_, hr.2⟩
        cases e with
        | skip => exact hb
        | reset => exact absurd rfl hr.1
        | emit a => exact List.mem_append_left _ hb
      · cases pre with
        | nil =>
          obtain ⟨rfl, rfl⟩ := List.cons.inj heq
          exact Or.inl ⟨List.mem_append_right _ (List.mem_singleton.mpr rfl), hs⟩
        | cons p pre =>
          obtain ⟨rfl, rfl⟩ := List.cons.inj heq
          exact Or.inr ⟨pre, suf, rfl, hs⟩

/-- **What the loop returns**: the entries that no later reset throws away. -/
theorem mem_scan {b : β} {events : List (Event β)} :
    b ∈ scan events ↔ ∃ pre suf, events = pre ++ .emit b :: suf ∧ .reset ∉ suf := by
  simp [scan, mem_scanFrom]

end ResetScan
