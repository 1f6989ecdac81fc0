import Mathlib.Data.Nat.ModEq
import Mathlib.Data.List.Basic

/-!
# Rings in one memory

Owners write items one after the other, each into a ring of its own in a memory that they share: the
item at the position `p` of an owner goes to its slot `p`, and two items go to one slot only where
they are of one owner and their positions agree modulo the size of the rings.

## What is proved

* `Holds.write`, `Holds.writes` — a ring holds the last items of its owner, after any item and any
  chunk.
-/

namespace Ring

variable {ι α β : Type*} [DecidableEq α]

/-- The memory after values are written in order. -/
def writes (mem : α → β) (ws : List (α × β)) : α → β :=
  ws.foldl (fun mem w => Function.update mem w.1 w.2) mem

theorem writes_cons (mem : α → β) (w : α × β) (ws : List (α × β)) :
    writes mem (w :: ws) = writes (Function.update mem w.1 w.2) ws := rfl

/-- What is not written stays. -/
theorem writes_of_forall_ne {a : α} {ws : List (α × β)} (h : ∀ w ∈ ws, w.1 ≠ a) (mem : α → β) :
    writes mem ws a = mem a := by
  induction ws generalizing mem with
  | nil => rfl
  | cons w ws ih =>
    obtain ⟨hw, hws⟩ := List.forall_mem_cons.mp h
    rw [writes_cons, ih hws, Function.update_of_ne hw.symm]

/-- Two items share a slot only where a ring has come round. -/
def Separates (slot : ι → ℕ → α) (size : ℕ) : Prop :=
  ∀ i j p q, slot i p = slot j q → i = j ∧ p ≡ q [MOD size]

/-- The last `size` items of every owner are in its ring. -/
def Holds (slot : ι → ℕ → α) (size : ℕ) (items : ι → List β) (mem : α → β) : Prop :=
  ∀ i p v, (items i).length ≤ p + size → (items i)[p]? = some v → mem (slot i p) = v

/-- The items with the slots that they go to, from the position `p` on. -/
def placed (slot : ℕ → α) (p : ℕ) : List β → List (α × β)
  | [] => []
  | v :: vs => (slot p, v) :: placed slot (p + 1) vs

omit [DecidableEq α] in
theorem exists_slot_of_mem_placed {slot : ℕ → α} {p : ℕ} {vs : List β} {w : α × β}
    (h : w ∈ placed slot p vs) :
    ∃ q, slot q = w.1 := by
  induction vs generalizing p with
  | nil => cases h
  | cons v vs ih =>
    rcases List.mem_cons.mp h with rfl | h
    · exact ⟨p, rfl⟩
    · exact ih h

omit [DecidableEq α] in
theorem placed_eq_zip (slot : ℕ → α) (p : ℕ) (vs : List β) :
    placed slot p vs = ((List.range' p vs.length).map slot).zip vs := by
  induction vs generalizing p with
  | nil => rfl
  | cons v vs ih =>
    rw [placed, ih, List.length_cons, List.range'_succ, List.map_cons, List.zip_cons_cons]

variable [DecidableEq ι] {slot : ι → ℕ → α} {size : ℕ} {items : ι → List β} {mem : α → β}

/-- The next item of an owner overwrites the one that is `size` behind. -/
theorem Holds.write (hslot : Separates slot size) (h : Holds slot size items mem) (i : ι) (v : β) :
    Holds slot size (Function.update items i (items i ++ [v]))
      (Function.update mem (slot i (items i).length) v) := by
  intro j p w hp hw
  have hother : ∀ {q}, (items j)[q]? = some w → (items j).length ≤ q + size →
      slot j q ≠ slot i (items i).length →
          Function.update mem (slot i (items i).length) v (slot j q) = w :=
    fun hq hle hne => by rw [Function.update_of_ne hne, h j _ w hle hq]
  by_cases hij : j = i
  · subst hij
    rw [Function.update_self, List.length_append, List.length_singleton] at hp
    rw [Function.update_self] at hw
    by_cases hlt : p < (items j).length
    · rw [List.getElem?_append_left hlt] at hw
      refine hother hw (by omega) fun heq => ?_
      have hdvd : size ∣ (items j).length - p :=
        (Nat.modEq_iff_dvd' hlt.le).mp (hslot _ _ _ _ heq).2
      have := Nat.le_of_dvd (by omega) hdvd
      omega
    · have hlast : p = (items j).length := by
        have := (List.getElem?_eq_some_iff.mp hw).1
        simp only [List.length_append, List.length_singleton] at this
        omega
      subst hlast
      rw [Function.update_self]
      simpa using hw
  · rw [Function.update_of_ne hij] at hp hw
    exact hother hw hp fun heq => hij (hslot _ _ _ _ heq).1

theorem Holds.writes (hslot : Separates slot size) (h : Holds slot size items mem) (i : ι)
    (chunk : List β) :
    Holds slot size (Function.update items i (items i ++ chunk))
      (writes mem (placed (slot i) (items i).length chunk)) := by
  induction chunk generalizing items mem with
  | nil => rwa [List.append_nil, Function.update_eq_self]
  | cons v chunk ih =>
    have hnext := ih (h.write hslot i v)
    rw [Function.update_self, Function.update_idem, List.append_assoc, List.singleton_append,
      List.length_append, List.length_singleton] at hnext
    rwa [placed, writes_cons]

end Ring
