import Glm53Serve.Launcher.CanonicalInt
import Glm53Serve.Lib.Ended
import Glm53Serve.Lib.Run
import Glm53Serve.Py.Replace

/-!
# The spin window

`GLM53_SPINWAIT_MS` is the window, in milliseconds, in which a reader of vLLM's broadcast queue
spins. The launcher checks it and passes it on; `patch_spinwait.py` writes it into the default of
`busy_loop_s` when the container boots, as a literal in seconds.

## The model

`prepare` and `main` work on the text of the file. A boot has the variable, the option
`--preflight`, whether the file can be replaced and whether the compiled files behind it can be
removed; whether Python compiles a text is a parameter. Other arguments, and a file that is missing,
are left out.

## What is proved

* `floatLiteral_secondsLiteral` — the literal is the number of milliseconds, in seconds.
* `run_boots` — what any boots make of a file, and which of them exit with 0.
* `launched_window` — what the launcher lets through is what a container makes of it.
-/

namespace Glm53Serve.Overlay.Spinwait

open Py Occurrences

/-! ### The literal -/

/-- `MAX_MS`. -/
def maxMs : ℕ := 1000

/-- The errors, each a `ValueError`. -/
inductive SpinwaitError where
  /-- "must be 'stock' or a base-10 integer". -/
  | notInteger (raw : Text)
  /-- `int` refuses so many digits. -/
  | digits (raw : Text)
  /-- "must be between 1 and {MAX_MS} milliseconds". -/
  | range (raw : Text)
  /-- "stock anchor found {stock_count} times". -/
  | stockAnchor (stockCount : ℕ)
  /-- "spinwait source is ambiguous or drifted". -/
  | ambiguous (stockCount replacementCount : ℕ)

/-- `parse_spinwait_ms`. -/
def parseSpinwaitMs : Option Text → Except SpinwaitError (Option ℕ)
  | none => .ok none
  | some raw =>
    if raw = "stock".toList then .ok none
    else if Sh.isDigits raw = false then .error (.notInteger raw)
    else if 4300 < raw.length then .error (.digits raw)
    else if 1 ≤ Sh.value 10 raw ∧ Sh.value 10 raw ≤ maxMs then .ok (some (Sh.value 10 raw))
    else .error (.range raw)

/-- `f"{milliseconds:03d}"`. -/
def padded (milliseconds : ℕ) : Text :=
  List.replicate (3 - (Nat.toDigits 10 milliseconds).length) '0' ++ Nat.toDigits 10 milliseconds

/-- `seconds_literal`. -/
def secondsLiteral (milliseconds : ℕ) : Text :=
  if milliseconds = 1000 then ['1'] else ('0' :: '.' :: padded milliseconds).rdropWhile (· = '0')

/-- The line up to its literal. -/
def lineHead : Text := "        busy_loop_s: float =".toList ++ [' ']

/-- The line with a literal, without its line feed. -/
def line (literal : Text) : Text := lineHead ++ literal ++ [',']

/-- `STOCK_LINE`. -/
def stockLine : Text := line ['1'] ++ ['\n']

/-- `configured_line`. -/
def configuredLine (milliseconds : ℕ) : Text := line (secondsLiteral milliseconds) ++ ['\n']

theorem configuredLine_stock : configuredLine 1000 = stockLine := rfl

/-! ### The patch -/

/-- The action that is reported. -/
inductive Action where
  | stock
  | stockEquivalent
  | patched
  | alreadyPresent

/-- `prepare`. -/
def prepare (source : Text) (milliseconds : Option ℕ) : Except SpinwaitError (Text × Action) :=
  let stockCount := count source stockLine
  match milliseconds with
  | none => if stockCount = 1 then .ok (source, .stock) else .error (.stockAnchor stockCount)
  | some ms =>
    let replacement := configuredLine ms
    if replacement = stockLine then
      if stockCount = 1 then .ok (source, .stockEquivalent) else .error (.stockAnchor stockCount)
    else
      let replacementCount := count source replacement
      if stockCount = 1 ∧ replacementCount = 0 then
        .ok (replaceFirst stockLine replacement source, .patched)
      else if stockCount = 0 ∧ replacementCount = 1 then .ok (source, .alreadyPresent)
      else .error (.ambiguous stockCount replacementCount)

/-- A run of `main`. -/
structure Boot where
  raw : Option Text
  preflight : Bool
  /-- `replace_file` goes through. -/
  replaces : Bool
  /-- `clear_pyc` goes through. -/
  clears : Bool

section Main

variable (compiles : Text → Bool)

/-- `main`: whether it exits with 0, and the file. -/
def main (file : Text) (b : Boot) : Bool × Text :=
  match parseSpinwaitMs b.raw with
  | .error _ => (false, file)
  | .ok milliseconds =>
    match prepare file milliseconds with
    | .error _ => (false, file)
    | .ok (patched, _) =>
      if compiles patched = false then (false, file)
      else if b.preflight then (true, file)
      else if patched ≠ file then if b.replaces then (b.clears, patched) else (false, file)
      else (true, file)

end Main

/-! ### The value of a literal -/

/-- The value of the digits behind the point. -/
def fraction (digits : Text) : ℚ := Sh.value 10 digits / 10 ^ digits.length

/-- The number that a decimal literal denotes. -/
def floatLiteral (t : Text) : ℚ :=
  Sh.value 10 (t.takeWhile (· ≠ '.')) + fraction (t.dropWhile (· ≠ '.')).tail

theorem fraction_concat_zero (digits : Text) : fraction (digits ++ ['0']) = fraction digits := by
  have hzero : '0'.toNat - '0'.toNat = 0 := rfl
  rw [fraction, fraction, Sh.value_concat, hzero, Nat.add_zero, List.length_append,
    List.length_singleton, pow_succ,
    Nat.cast_mul]
  exact mul_div_mul_right _ _ (by norm_num)

/-- The zeros at the end do not matter. -/
theorem fraction_rdropWhile (digits : Text) :
    fraction (digits.rdropWhile (· = '0')) = fraction digits := by
  induction digits using List.reverseRecOn with
  | nil => rfl
  | append_singleton digits c ih =>
    by_cases hc : c = '0'
    · rw [hc, List.rdropWhile_concat_pos _ _ _ (by simp), ih, fraction_concat_zero]
    · rw [List.rdropWhile_concat_neg _ _ _ (by simpa using hc)]

theorem length_padded {ms : ℕ} (h : ms < 1000) : (padded ms).length = 3 := by
  have hlen : (Nat.toDigits 10 ms).length ≤ 3 :=
    (Nat.length_toDigits_le_iff (by norm_num) (by norm_num)).mpr h
  rw [padded, List.length_append, List.length_replicate]
  omega

theorem value_padded (ms : ℕ) : Sh.value 10 (padded ms) = ms := by
  rw [padded, Sh.value_append, Sh.value_zeros]
  exact Launcher.value_toDigits ms

/-- The point ends the zeros. -/
theorem rdropWhile_point (digits : Text) :
    ('0' :: '.' :: digits).rdropWhile (· = '0') = '0' :: '.' :: digits.rdropWhile (· = '0') := by
  induction digits using List.reverseRecOn with
  | nil => rfl
  | append_singleton digits c ih =>
    rw [← List.cons_append, ← List.cons_append]
    by_cases hc : c = '0'
    · rw [hc, List.rdropWhile_concat_pos _ _ _ (by simp),
        List.rdropWhile_concat_pos _ _ _ (by simp), ih]
    · rw [List.rdropWhile_concat_neg _ _ _ (by simpa using hc),
        List.rdropWhile_concat_neg _ _ _ (by simpa using hc)]
      rfl

/-- **The literal** is the window in seconds. -/
theorem floatLiteral_secondsLiteral {ms : ℕ} (h : ms ≤ 1000) :
    floatLiteral (secondsLiteral ms) = ms / 1000 := by
  rcases h.eq_or_lt with rfl | hlt
  · have hone : floatLiteral (secondsLiteral 1000) = (1 : ℕ) + (0 : ℕ) / 10 ^ 0 := rfl
    rw [hone]
    norm_num
  · rw [secondsLiteral, if_neg hlt.ne, rdropWhile_point]
    have hpoint : floatLiteral ('0' :: '.' :: (padded ms).rdropWhile (· = '0')) =
        (0 : ℕ) + fraction ((padded ms).rdropWhile (· = '0')) := rfl
    rw [hpoint, fraction_rdropWhile, fraction, value_padded, length_padded hlt]
    norm_num

theorem secondsLiteral_inj {ms ms' : ℕ} (h : ms ≤ 1000) (h' : ms' ≤ 1000)
    (heq : secondsLiteral ms = secondsLiteral ms') : ms = ms' := by
  have hvalue := floatLiteral_secondsLiteral h
  rw [heq, floatLiteral_secondsLiteral h', div_left_inj' (by norm_num)] at hvalue
  exact_mod_cast hvalue.symm

theorem configuredLine_inj {ms ms' : ℕ} (h : ms ≤ 1000) (h' : ms' ≤ 1000)
    (heq : configuredLine ms = configuredLine ms') : ms = ms' := by
  simp only [configuredLine, line, List.append_left_inj, List.append_right_inj] at heq
  exact secondsLiteral_inj h h' heq

theorem mem_secondsLiteral {ms : ℕ} {c : Char} (h : c ∈ secondsLiteral ms) : c.isDigit = true ∨
    c = '.' := by
  unfold secondsLiteral at h
  split_ifs at h
  · rw [List.mem_singleton.mp h]
    exact .inl rfl
  · rcases List.mem_cons.mp ((List.rdropWhile_prefix _ _).subset h) with rfl | h
    · exact .inl rfl
    rcases List.mem_cons.mp h with rfl | h
    · exact .inr rfl
    · rcases List.mem_append.mp h with h | h
      · rw [List.eq_of_mem_replicate h]
        exact .inl rfl
      · exact .inl (Nat.isDigit_of_mem_toDigits (by decide) (by decide) h)

theorem notMem_secondsLiteral {c : Char} (hdigit : c.isDigit = false) (hpoint : c ≠ '.') (ms : ℕ) :
    c ∉ secondsLiteral ms := fun h => (mem_secondsLiteral h).elim (by simp [hdigit]) hpoint

/-! ### The lines of a file -/

theorem lf_notMem_line (ms : ℕ) : '\n' ∉ line (secondsLiteral ms) := by
  have hhead : '\n' ∉ lineHead := by decide
  simp only [line, List.mem_append, not_or]
  exact ⟨⟨hhead, notMem_secondsLiteral rfl (by decide) ms⟩, by decide⟩

/-- A line ends like another only if it has the same literal. -/
theorem line_suffix {ms ms' : ℕ} (h : ms ≤ 1000) (h' : ms' ≤ 1000) (u : Text) :
    line (secondsLiteral ms') <:+ u ++ line (secondsLiteral ms) ↔ ms' = ms := by
  constructor
  · rintro ⟨w, hw⟩
    obtain ⟨head, hhead⟩ : ∃ head, lineHead = head ++ [' '] := ⟨_, rfl⟩
    simp only [line, hhead, ← List.append_assoc] at hw
    have hcut := (List.append_inj' hw rfl).1
    simp only [List.append_assoc, List.singleton_append] at hcut
    have hsuffix : head ++ ' ' :: secondsLiteral ms' <:+ (u ++ head) ++ ' ' :: secondsLiteral ms :=
      ⟨w, by rw [hcut, List.append_assoc]⟩
    exact secondsLiteral_inj h' h (eq_of_suffix (notMem_secondsLiteral rfl (by decide) ms)
      (notMem_secondsLiteral rfl (by decide) ms') hsuffix)
  · rintro rfl
    exact List.suffix_append u _

/-- The lines around one of them do not depend on its literal. -/
theorem occ_configuredLine {ms ms' : ℕ} (h : ms ≤ 1000) (h' : ms' ≤ 1000) (u v : Text) :
    occ (configuredLine ms') (u ++ configuredLine ms ++ v) =
      occ (configuredLine ms') u + (if ms' = ms then 1 else 0) + occ (configuredLine ms') v := by
  have htext : u ++ configuredLine ms ++ v = (u ++ line (secondsLiteral ms)) ++ '\n' :: v := by
    simp [configuredLine]
  rw [htext, configuredLine, occ_ended_split (lf_notMem_line ms'),
    occ_ended_append (lf_notMem_line ms)]
  simp only [line_suffix h h']

/-- A file that has the stock line once, and no other window. -/
structure Pristine (s : Text) : Prop where
  stock : occ stockLine s = 1
  unconfigured : ∀ ms, ms < 1000 → occ (configuredLine ms) s = 0

/-- The file with another window. -/
def withWindow (s : Text) (ms : ℕ) : Text := replaceFirst stockLine (configuredLine ms) s

section File

variable {s : Text} (hs : Pristine s) {ms ms' : ℕ}
include hs

theorem Pristine.split : ∃ u v, s = u ++ stockLine ++ v ∧
    ∀ ms, withWindow s ms = u ++ configuredLine ms ++ v := by
  obtain ⟨u, v, heq, -⟩ := exists_replaceFirst (x := stockLine) (t := s)
    (by rw [hs.stock]; decide) []
  refine ⟨u, v, heq, fun ms => ?_⟩
  rw [withWindow, heq]
  exact replaceFirst_of_once (by simp [stockLine]) (by rw [← heq, hs.stock]) _

theorem withWindow_stock : withWindow s 1000 = s := by
  obtain ⟨u, v, heq, hwindow⟩ := hs.split
  rw [hwindow, heq]
  rfl

/-- Of all windows the file has one, once. -/
theorem occ_withWindow (h : ms ≤ 1000) (h' : ms' ≤ 1000) :
    occ (configuredLine ms') (withWindow s ms) = if ms' = ms then 1 else 0 := by
  obtain ⟨u, v, heq, hwindow⟩ := hs.split
  have hsplit := occ_configuredLine (le_refl 1000) h' u v
  have hrest : occ (configuredLine ms') u + occ (configuredLine ms') v = 0 := by
    rw [configuredLine_stock, ← heq] at hsplit
    rcases h'.eq_or_lt with rfl | hlt
    · rw [if_pos rfl, configuredLine_stock, hs.stock] at hsplit
      change occ stockLine u + occ stockLine v = 0
      omega
    · rw [hs.unconfigured ms' hlt] at hsplit
      omega
  rw [hwindow, occ_configuredLine h h']
  omega

theorem withWindow_inj (h : ms ≤ 1000) (h' : ms' ≤ 1000)
    (heq : withWindow s ms = withWindow s ms') : ms = ms' := by
  by_contra hne
  have hone := occ_withWindow hs h h
  rw [heq, occ_withWindow hs h' h, if_neg hne, if_pos rfl] at hone
  cases hone

theorem count_withWindow (h : ms ≤ 1000) (h' : ms' ≤ 1000) :
    count (withWindow s ms) (configuredLine ms') = if ms' = ms then 1 else 0 := by
  have hocc := occ_withWindow hs h h'
  split_ifs at hocc ⊢
  · exact count_of_occ_one hocc
  · exact count_eq_zero_iff.mpr hocc

/-- What `prepare` makes of a file with a window. -/
theorem prepare_withWindow (h : ms ≤ 1000) {asked : Option ℕ} (hasked : ∀ ms' ∈ asked, ms' ≤ 1000) :
    (prepare (withWindow s ms) asked).toOption.map Prod.fst =
      if asked.getD 1000 = ms ∨ ms = 1000 then some (withWindow s (asked.getD 1000)) else none := by
  have hstock := count_withWindow hs h (le_refl 1000)
  rw [configuredLine_stock] at hstock
  have hstay : (if count (withWindow s ms) stockLine = 1 then some (withWindow s ms) else none) =
      if 1000 = ms ∨ ms = 1000 then some (withWindow s 1000) else none := by
    rw [hstock]
    by_cases hms : ms = 1000
    · simp [hms]
    · simp [hms, Ne.symm hms]
  cases asked with
  | none =>
    rw [Option.getD_none, ← hstay, prepare]
    split_ifs <;> rfl
  | some ms' =>
    have h' : ms' ≤ 1000 := hasked ms' rfl
    by_cases hequivalent : ms' = 1000
    · subst hequivalent
      rw [Option.getD_some, ← hstay, prepare]
      simp only [configuredLine_stock, if_true]
      split_ifs <;> rfl
    · have hcount := count_withWindow hs h h'
      have hother : configuredLine ms' ≠ stockLine :=
        fun heq => hequivalent (configuredLine_inj h' le_rfl heq)
      rw [Option.getD_some, prepare]
      simp only [if_neg hother, hstock, hcount]
      by_cases hms : ms = 1000
      · subst hms
        simp only [if_true, if_neg hequivalent, and_self, or_true, withWindow_stock hs]
        rfl
      · by_cases hsame : ms' = ms
        · simp [hsame, Ne.symm hms, Except.toOption]
        · simp [hsame, hms, Ne.symm hms, Except.toOption]

end File

/-! ### The boots -/

/-- The window that a boot asks for. -/
def asks (raw : Option Text) : Option ℕ := (parseSpinwaitMs raw).toOption.map (·.getD 1000)

theorem parse_le {raw : Option Text} {asked : Option ℕ} (h : parseSpinwaitMs raw = .ok asked) :
    ∀ ms ∈ asked, 1 ≤ ms ∧ ms ≤ 1000 := by
  intro ms hms
  unfold parseSpinwaitMs at h
  split at h
  · cases h
    cases hms
  · split_ifs at h with hstock hdigits hlong hrange
    · cases h
      cases hms
    · cases h
      cases hms
      exact hrange

theorem asks_le {raw : Option Text} {ms : ℕ} (h : asks raw = some ms) : 1 ≤ ms ∧ ms ≤ 1000 := by
  unfold asks at h
  cases hparse : parseSpinwaitMs raw with
  | error e => simp [hparse, Except.toOption] at h
  | ok asked =>
    cases asked with
    | none =>
      simp only [hparse, Except.toOption, Option.map_some, Option.getD_none, Option.some.injEq] at h
      omega
    | some ms' =>
      simp only [hparse, Except.toOption, Option.map_some, Option.getD_some, Option.some.injEq] at h
      exact h ▸ parse_le hparse ms' rfl

section Boots

variable (compiles : Text → Bool) (s : Text)

/-- A boot exits with 0: it asks for a window, which is there or comes in the place of the stock
one. -/
def Accepts (ms : ℕ) (b : Boot) : Prop :=
  ∃ ms', asks b.raw = some ms' ∧ (ms' = ms ∨ ms = 1000) ∧ compiles (withWindow s ms') = true ∧
    (ms' = ms ∨ b.preflight = true ∨ b.replaces = true ∧ b.clears = true)

/-- The window behind a boot. -/
def installed (ms : ℕ) (b : Boot) : ℕ :=
  match asks b.raw with
  | none => ms
  | some ms' =>
    if (ms' = ms ∨ ms = 1000) ∧ compiles (withWindow s ms') = true ∧ b.preflight = false ∧
      b.replaces = true then ms' else ms

variable {compiles s} (hs : Pristine s) {ms : ℕ} {b : Boot}
include hs

/-- A boot whose window can be had. -/
theorem main_of_asks (h : ms ≤ 1000) {ms' : ℕ} (hasks : asks b.raw = some ms')
    (hfits : ms' = ms ∨ ms = 1000) :
    main compiles (withWindow s ms) b =
      if compiles (withWindow s ms') = false then (false, withWindow s ms)
      else if b.preflight then (true, withWindow s ms)
      else if withWindow s ms' ≠ withWindow s ms then
        if b.replaces then (b.clears, withWindow s ms') else (false, withWindow s ms)
      else (true, withWindow s ms) := by
  cases hparse : parseSpinwaitMs b.raw with
  | error e => simp [asks, hparse, Except.toOption] at hasks
  | ok asked =>
    have hms' : asked.getD 1000 = ms' := by simpa [asks, hparse, Except.toOption] using hasks
    have hprepare := prepare_withWindow hs h fun ms hms => (parse_le hparse ms hms).2
    rw [hms', if_pos hfits] at hprepare
    cases hp : prepare (withWindow s ms) asked with
    | error e => simp [hp, Except.toOption] at hprepare
    | ok p =>
      have hfirst : p.1 = withWindow s ms' := by simpa [hp, Except.toOption] using hprepare
      simp only [main, hparse, hp, hfirst]

/-- A boot that asks for nothing, or for what cannot be had. -/
theorem main_of_not (h : ms ≤ 1000)
    (hnot : ∀ ms', asks b.raw = some ms' → ¬(ms' = ms ∨ ms = 1000)) :
    main compiles (withWindow s ms) b = (false, withWindow s ms) := by
  cases hparse : parseSpinwaitMs b.raw with
  | error e => simp only [main, hparse]
  | ok asked =>
    have hasks : asks b.raw = some (asked.getD 1000) := by simp [asks, hparse, Except.toOption]
    have hprepare := prepare_withWindow hs h fun ms hms => (parse_le hparse ms hms).2
    rw [if_neg (hnot _ hasks)] at hprepare
    cases hp : prepare (withWindow s ms) asked with
    | error e => simp only [main, hparse, hp]
    | ok p => simp [hp, Except.toOption] at hprepare

theorem main_accepts (h : ms ≤ 1000) :
    (main compiles (withWindow s ms) b).1 = true ↔ Accepts compiles s ms b := by
  by_cases hfits : ∃ ms', asks b.raw = some ms' ∧ (ms' = ms ∨ ms = 1000)
  · obtain ⟨ms', hasks, hfits⟩ := hfits
    have hsame : withWindow s ms' ≠ withWindow s ms ↔ ms' ≠ ms :=
      ⟨fun hne heq => hne (by rw [heq]),
        fun hne heq => hne (withWindow_inj hs (asks_le hasks).2 h heq)⟩
    have haccepts : Accepts compiles s ms b ↔ compiles (withWindow s ms') = true ∧
        (ms' = ms ∨ b.preflight = true ∨ b.replaces = true ∧ b.clears = true) := by
      constructor
      · rintro ⟨ms'', hasks', -, hcompiles, hreplaces⟩
        cases hasks.symm.trans hasks'
        exact ⟨hcompiles, hreplaces⟩
      · exact fun hboth => ⟨ms', hasks, hfits, hboth.1, hboth.2⟩
    rw [main_of_asks hs h hasks hfits, haccepts]
    simp only [hsame]
    split_ifs with hcompiles hpreflight hne hreplaces
    · simp [hcompiles]
    · simp [hcompiles, hpreflight]
    · simp [hcompiles, hpreflight, hne, hreplaces]
    · simp [hcompiles, hpreflight, hne, hreplaces]
    · obtain rfl := not_not.mp hne
      simpa using hcompiles
  · rw [main_of_not hs h fun ms' hasks hfits' => hfits ⟨ms', hasks, hfits'⟩]
    refine iff_of_false Bool.false_ne_true ?_
    rintro ⟨ms', hasks, hfits', -⟩
    exact hfits ⟨ms', hasks, hfits'⟩

/-- The file behind a boot. -/
theorem main_file (h : ms ≤ 1000) :
    (main compiles (withWindow s ms) b).2 = withWindow s (installed compiles s ms b) := by
  unfold installed
  by_cases hfits : ∃ ms', asks b.raw = some ms' ∧ (ms' = ms ∨ ms = 1000)
  · obtain ⟨ms', hasks, hfits⟩ := hfits
    simp only [main_of_asks hs h hasks hfits, hasks]
    by_cases hcompiles : compiles (withWindow s ms') = false
    · simp [hcompiles]
    by_cases hpreflight : b.preflight = true
    · simp [hcompiles, hpreflight]
    by_cases hsame : withWindow s ms' = withWindow s ms
    · obtain rfl := withWindow_inj hs (asks_le hasks).2 h hsame
      simp [hcompiles, hpreflight]
    by_cases hreplaces : b.replaces = true
    · simp [hcompiles, hpreflight, hsame, hreplaces, hfits]
    · simp [hcompiles, hpreflight, hsame, hreplaces]
  · rw [main_of_not hs h fun ms' hasks hfits' => hfits ⟨ms', hasks, hfits'⟩]
    cases hasks : asks b.raw with
    | none => rfl
    | some ms' => simp only [if_neg fun hinstalls => hfits ⟨ms', hasks, And.left hinstalls⟩]

omit hs in
theorem installed_le (h : ms ≤ 1000) : installed compiles s ms b ≤ 1000 := by
  unfold installed
  cases hasks : asks b.raw with
  | none => exact h
  | some ms' =>
    dsimp only
    split_ifs
    · exact (asks_le hasks).2
    · exact h

omit hs in
/-- A window that is no longer the stock one stays. -/
theorem installed_of_ne (hne : ms ≠ 1000) : installed compiles s ms b = ms := by
  unfold installed
  cases asks b.raw with
  | none => rfl
  | some ms' =>
    dsimp only
    split_ifs with hinstalls
    · exact hinstalls.1.resolve_right hne
    · rfl

omit hs in
/-- A boot that exits with 0 leaves the window that it has asked for. -/
theorem installed_of_accepts (h : Accepts compiles s ms b) (hpreflight : b.preflight = false) :
    asks b.raw = some (installed compiles s ms b) := by
  obtain ⟨ms', hasks, hfits, hcompiles, hreplaces⟩ := h
  simp only [installed, hasks]
  rcases hreplaces with rfl | hpreflight' | ⟨hreplaces, -⟩
  · rw [ite_self]
  · simp [hpreflight] at hpreflight'
  · rw [if_pos ⟨hfits, hcompiles, hpreflight, hreplaces⟩]

omit hs in
/-- A boot that fails leaves the window, but where only the compiled files could not be removed. -/
theorem installed_of_not (h : ¬Accepts compiles s ms b) (hclears : b.clears = true) :
    installed compiles s ms b = ms := by
  unfold installed
  cases hasks : asks b.raw with
  | none => rfl
  | some ms' =>
    dsimp only
    refine if_neg fun hinstalls => h ?_
    exact ⟨ms', hasks, hinstalls.1, hinstalls.2.1, .inr (.inr ⟨hinstalls.2.2.2, hclears⟩)⟩

/-- What any boots leave of a file. -/
theorem run_file (bs : List Boot) (h : ms ≤ 1000) :
    Run.run (fun file b => (main compiles file b).2) (withWindow s ms) bs =
        withWindow s (Run.run (installed compiles s) ms bs) ∧
            Run.run (installed compiles s) ms bs ≤ 1000 := by
  induction bs generalizing ms with
  | nil => exact ⟨rfl, h⟩
  | cons b bs ih =>
    rw [Run.run_cons, Run.run_cons, main_file hs h]
    exact ih (installed_le h)

omit hs in
theorem run_of_ne (bs : List Boot) (hne : ms ≠ 1000) : Run.run (installed compiles s) ms bs = ms :=
  Run.run_invariant (· = ms) (fun _ b heq => by rw [heq, installed_of_ne hne]) rfl bs

/-- **The boots.** Whatever boots a file with the stock line goes through, one after another, it has
one window line, with the literal of a window in seconds: the stock window, or the first other one
that was asked for and could be written, which then stays. A boot exits with 0 exactly if it asks
for the window that is there, or the stock window is there and its own compiles and is only looked
at, or can be written and the compiled files removed; if it is no preflight, its window is then the
one of the file. One that fails leaves the file as it is, but where only the compiled files could
not be removed. -/
theorem run_boots (bs : List Boot) (b : Boot) :
    ∃ ms ≤ 1000, ms = Run.run (installed compiles s) 1000 bs ∧
      Run.run (fun file b => (main compiles file b).2) s bs = withWindow s ms ∧
      (∀ ms' ≤ 1000, occ (configuredLine ms') (withWindow s ms) = if ms' = ms then 1 else 0) ∧
      floatLiteral (secondsLiteral ms) = ms / 1000 ∧
      (ms ≠ 1000 → ∀ bs', Run.run (installed compiles s) 1000 (bs ++ bs') = ms) ∧
      ((main compiles (withWindow s ms) b).1 = true ↔ Accepts compiles s ms b) ∧
      (Accepts compiles s ms b → b.preflight = false →
        asks b.raw = some (Run.run (installed compiles s) 1000 (bs ++ [b]))) ∧
      (¬Accepts compiles s ms b → b.clears = true →
        Run.run (installed compiles s) 1000 (bs ++ [b]) = ms) := by
  obtain ⟨hfile, hle⟩ :
      Run.run (fun file b => (main compiles file b).2) (withWindow s 1000) bs = _ ∧ _ :=
    run_file hs bs le_rfl
  rw [withWindow_stock hs] at hfile
  refine ⟨_, hle, rfl, hfile, fun ms' h' => occ_withWindow hs hle h',
    floatLiteral_secondsLiteral hle, fun hne bs' => ?_, main_accepts hs hle,
    fun haccepts hpreflight => ?_, fun hnot hclears => ?_⟩
  · rw [Run.run_append]
    exact run_of_ne bs' hne
  · rw [Run.run_append]
    exact installed_of_accepts haccepts hpreflight
  · rw [Run.run_append]
    exact installed_of_not hnot hclears

end Boots

/-! ### From the launcher -/

section Launcher

variable {κ : Type*} [DecidableEq κ] (name : κ) (value : Text) (shell : Launcher.Shell κ)

/-- `_glm53_validate_spinwait_ms` of `start.sh`. -/
def validateSpinwaitMs : Launcher.Checked κ :=
  if value = "stock".toList then ⟨.ok (), shell.export name value, []⟩
  else Launcher.canonicalPositiveInt name value ['1', '0', '0', '0'] shell

/-- The window that a value stands for. -/
def window : ℕ := if value = "stock".toList then 1000 else Sh.value 10 value

theorem asks_of_digits {text : Text} (hdigits : Sh.isDigits text = true) (hlen : text.length ≤ 4300)
    (h : 1 ≤ Sh.value 10 text) (h' : Sh.value 10 text ≤ 1000) :
    asks (some text) = some (Sh.value 10 text) := by
  have hstock : text ≠ "stock".toList := by
    rintro rfl
    exact absurd hdigits (by decide)
  have hrange : 1 ≤ Sh.value 10 text ∧ Sh.value 10 text ≤ maxMs := ⟨h, h'⟩
  simp only [asks, parseSpinwaitMs, if_neg hstock, hdigits, Bool.true_eq_false, if_false,
    if_neg (Nat.not_lt.mpr hlen),
    if_pos hrange]
  rfl

theorem toDigits_asks {ms : ℕ} (h : 1 ≤ ms) (h' : ms ≤ 1000) :
    asks (some (Nat.toDigits 10 ms)) = some ms := by
  have hdigits : Sh.isDigits (Nat.toDigits 10 ms) = true :=
    Sh.isDigits_iff.mpr ⟨Nat.toDigits_ne_nil, fun c hc =>
      Nat.isDigit_of_mem_toDigits (by decide) (by decide) hc⟩
  have hlen : (Nat.toDigits 10 ms).length ≤ 4 :=
    (Nat.length_toDigits_le_iff (by decide) (by decide)).mpr (by omega)
  have hvalue := Launcher.value_toDigits ms
  have hasks := asks_of_digits hdigits (by omega) (by omega) (by omega)
  rwa [hvalue] at hasks

/-- A value that the launcher lets through: `stock` or a number up to the maximum. -/
def Passes : Prop :=
  value = "stock".toList ∨ Sh.isDigits value = true ∧ 1 ≤ Sh.value 10 value ∧
    Sh.value 10 value ≤ 1000

theorem asks_of_not {text : Text} (hstock : text ≠ "stock".toList)
    (h : ¬(Sh.isDigits text = true ∧ 1 ≤ Sh.value 10 text ∧ Sh.value 10 text ≤ 1000)) :
    asks (some text) = none := by
  simp only [asks, parseSpinwaitMs, if_neg hstock]
  split_ifs with hdigits hlen hrange
  · rfl
  · rfl
  · exact absurd ⟨by simpa using hdigits, hrange⟩ h
  · rfl

/-- The check exports a text that stands for the same window, or a container would refuse the value
too. -/
theorem validate_cases :
    (Passes value ∧ (validateSpinwaitMs name value shell).outcome = .ok () ∧
        ∃ text, (validateSpinwaitMs name value shell).shell = shell.export name text ∧
          asks (some text) = some (window value)) ∨
      ¬Passes value ∧ (validateSpinwaitMs name value shell).outcome ≠ .ok () ∧
        asks (some value) = none := by
  unfold validateSpinwaitMs window Passes
  by_cases hstock : value = "stock".toList
  · subst hstock
    exact .inl ⟨.inl rfl, rfl, _, rfl, rfl⟩
  rw [if_neg hstock, if_neg hstock]
  simp only [hstock, false_or]
  by_cases hdigits : Sh.isDigits value = true
  · have hmax : Sh.value 10 ['1', '0', '0', '0'] = 1000 := rfl
    have hcall := @Launcher.canonicalPositiveInt_digits κ _ name value
      ['1', '0', '0', '0'] shell hdigits (by decide)
      (by decide)
    simp only [hmax, List.length_cons, List.length_nil] at hcall
    rw [hcall]
    split_ifs with hrange hgreater
    · exact .inr ⟨by omega, by simp, asks_of_not hstock (by omega)⟩
    · exact .inr ⟨by omega, by simp, asks_of_not hstock (by omega)⟩
    · exact .inl ⟨⟨hdigits, by omega, by omega⟩, rfl, _, rfl, toDigits_asks (by omega) (by omega)⟩
  · have hcall : Launcher.canonicalPositiveInt name value ['1', '0', '0', '0'] shell =
        ⟨.error (.notInteger value), shell, []⟩ := by
      rw [Launcher.canonicalPositiveInt, if_pos (by simpa using hdigits)]
    rw [hcall]
    exact .inr ⟨fun h => hdigits h.1, by simp, asks_of_not hstock fun h => hdigits h.1⟩

/-- **From the launcher to the file.** The launcher lets `stock` and the numbers from 1 to 1000
through, with any zeros before them. With what it exports, a container with a stock file that can be
written boots exactly if Python compiles the patched file, and the file then has the one window, in
seconds; each other value a container would refuse itself. -/
theorem launched_window {compiles : Text → Bool} {s : Text} (hs : Pristine s) :
    ((validateSpinwaitMs name value shell).outcome = .ok () ↔ Passes value) ∧
      ((validateSpinwaitMs name value shell).outcome = .ok () → ∃ text,
        (validateSpinwaitMs name value shell).shell = shell.export name text ∧
          ((main compiles s ⟨some text, false, true, true⟩).1 = true ↔
            compiles (withWindow s (window value)) = true) ∧
          (compiles (withWindow s (window value)) = true →
            (main compiles s ⟨some text, false, true, true⟩).2 = withWindow s (window value)) ∧
          floatLiteral (secondsLiteral (window value)) = window value / 1000) ∧
      ((validateSpinwaitMs name value shell).outcome ≠ .ok () →
        ∀ preflight replaces clears,
          main compiles s ⟨some value, preflight, replaces, clears⟩ = (false, s)) := by
  rcases validate_cases name value shell with ⟨hpasses, hok, text, hshell, hasks⟩
    | ⟨hpasses, hno, hasks⟩
  · have hle := (asks_le hasks).2
    have hmain : main compiles (withWindow s 1000) ⟨some text, false, true, true⟩ = _ :=
      main_of_asks hs le_rfl hasks (.inr rfl)
    rw [withWindow_stock hs] at hmain
    simp only [if_true, Bool.false_eq_true, if_false] at hmain
    refine ⟨iff_of_true hok hpasses, fun _ =>
      ⟨text, hshell, ?_, fun hcompiles => ?_, floatLiteral_secondsLiteral hle⟩,
      fun hno => absurd hok hno⟩
    · rw [hmain]
      split_ifs with hcompiles hsame <;> simp [hcompiles]
    · rw [hmain]
      split_ifs with hno hsame
      · simp [hcompiles] at hno
      · rfl
      · exact (not_not.mp hsame).symm
  · refine ⟨iff_of_false hno hpasses, fun hok => absurd hok hno,
      fun _ preflight replaces clears => ?_⟩
    have hmain : main compiles (withWindow s 1000) ⟨some value, preflight, replaces, clears⟩ = _ :=
      main_of_not hs le_rfl fun ms' h => by simp [hasks] at h
    rwa [withWindow_stock hs] at hmain

end Launcher

/-! ### A file with the stock line -/

/-- A text without `=` has no window. -/
theorem occ_eq_zero_of_notMem {u : Text} (h : '=' ∉ u) (ms : ℕ) :
    occ (configuredLine ms) u = 0 := by
  have hline : '=' ∈ configuredLine ms := by
    have hhead : '=' ∈ lineHead := by decide
    simp [configuredLine, line, hhead]
  have hcount := occ_le_count hline u
  rw [List.count_eq_zero.mpr h] at hcount
  exact Nat.le_zero.mp hcount

def spinHead : Text := "class SpinCondition:\n    def __init__(\n        self,\n".toList

def spinBody : Text := "    ) -> None:\n        pass\n".toList

/-- A class that has the window as a default. -/
def spinCondition : Text := spinHead ++ stockLine ++ spinBody

theorem occ_spinCondition {ms : ℕ} (h : ms ≤ 1000) :
    occ (configuredLine ms) spinCondition = if ms = 1000 then 1 else 0 := by
  have hhead := occ_eq_zero_of_notMem (u := spinHead) (by decide +kernel) ms
  have hbody := occ_eq_zero_of_notMem (u := spinBody) (by decide +kernel) ms
  have hsplit := occ_configuredLine (le_refl 1000) h spinHead spinBody
  rw [hhead, hbody, configuredLine_stock] at hsplit
  simpa [spinCondition] using hsplit

theorem pristine_spinCondition : Pristine spinCondition where
  stock := by
    have hstock := occ_spinCondition (le_refl 1000)
    rwa [if_pos rfl, configuredLine_stock] at hstock
  unconfigured ms h := by rw [occ_spinCondition h.le, if_neg h.ne]

/-- Boots with the stock window, a preflight, `016`, and the stock window again, which is then
refused. -/
def sixteenBoots : List Boot :=
  [⟨none, false, true, true⟩, ⟨some ['1', '6'], true, true, true⟩,
    ⟨some ['0', '1', '6'], false, true, true⟩, ⟨none, false, true, true⟩]

theorem run_boots_sixteen :
    Run.run (fun file b => (main (fun _ => true) file b).2) spinCondition sixteenBoots =
      withWindow spinCondition 16 ∧
    (main (fun _ => true) (withWindow spinCondition 16) ⟨none, false, true, true⟩).1 ≠ true := by
  obtain ⟨ms, -, hms, hfile, -, -, -, hmain, -⟩ :=
    @run_boots (fun _ => true) _ pristine_spinCondition sixteenBoots ⟨none, false, true, true⟩
  have hsixteen : Run.run (installed (fun _ => true) spinCondition) 1000 sixteenBoots = 16 := by
    decide +kernel
  rw [hsixteen] at hms
  subst hms
  refine ⟨hfile, fun h => ?_⟩
  obtain ⟨ms', hasks, hfits, -⟩ := hmain.mp h
  cases hasks
  simp at hfits

theorem launched_window_leading_zero :
    Passes ['0', '1', '6'] ∧
      (validateSpinwaitMs () ['0', '1', '6'] ⟨fun _ => none, fun _ => false⟩).outcome = .ok () := by
  have hpasses : Passes ['0', '1', '6'] := .inr (by decide)
  exact ⟨hpasses, (@launched_window Unit _ () ['0', '1', '6'] ⟨fun _ => none, fun _ => false⟩
    (fun _ => true) _ pristine_spinCondition).1.mpr hpasses⟩

end Glm53Serve.Overlay.Spinwait
