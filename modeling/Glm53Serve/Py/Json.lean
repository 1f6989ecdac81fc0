import Glm53Serve.Py.Text
import Mathlib.Data.Nat.Digits.Lemmas
import Mathlib.Tactic.IntervalCases

/-!
# Python JSON

`json.dumps(v, indent=2)` and `json.loads(t)`.

## The model

`loads` reads the text with a machine that takes one character after the other; its state
holds the containers that are open. An object keeps its fields in the order of a `dict`: a
key that comes again keeps its place and gets the new value. Numbers are integers: a text
with another number is refused here. A `str` is a list of code points, so a surrogate that
is not half of a pair is refused too.

## What is proved

* `run_dump` — reading what `dump` wrote delivers the value that was written.
* `loads_dumps` — so `loads` inverts `dumps` on values whose keys are distinct.
* `loads_take_dumps` — of a text that ends with `}` no proper prefix is accepted.
-/

namespace Py

/-- A JSON value. -/
inductive Json where
  | null
  | bool (b : Bool)
  | int (n : ℤ)
  | str (t : Text)
  | arr (items : List Json)
  | obj (fields : List (Text × Json))

namespace Json

/-- `d[k] = v` of a `dict`. -/
def setKey {α : Type} (fields : List (Text × α)) (k : Text) (v : α) : List (Text × α) :=
  match fields with
  | [] => [(k, v)]
  | (k', v') :: fields => if k' = k then (k, v) :: fields else (k', v') :: setKey fields k v

/-- `v[k]` of an object, if it is one and has the key. -/
def get (v : Json) (k : Text) : Option Json :=
  match v with
  | .obj fields => fields.lookup k
  | _ => none

theorem lookup_setKey_self {α : Type} (fields : List (Text × α)) (k : Text) (v : α) :
    (setKey fields k v).lookup k = some v := by
  induction fields with
  | nil => simp [setKey]
  | cons f fields ih =>
    rw [setKey]
    split_ifs with h
    · simp
    · rw [List.lookup_cons, beq_false_of_ne (Ne.symm h)]
      exact ih

theorem lookup_setKey_of_ne {α : Type} (fields : List (Text × α)) {k k' : Text}
    (h : k' ≠ k) (v : α) :
    (setKey fields k v).lookup k' = fields.lookup k' := by
  induction fields with
  | nil => simp [setKey, List.lookup_cons, beq_false_of_ne h]
  | cons f fields ih =>
    rw [setKey]
    split_ifs with hf
    · rw [List.lookup_cons, List.lookup_cons, hf, beq_false_of_ne h]
    · rw [List.lookup_cons, List.lookup_cons, ih]

theorem mem_setKey {α : Type} {fields : List (Text × α)} {k k' : Text} {v v' : α}
    (h : (k', v') ∈ setKey fields k v) : (k' = k ∧ v' = v) ∨ (k', v') ∈ fields := by
  induction fields with
  | nil =>
    left
    simpa [setKey] using h
  | cons f fields ih =>
    rw [setKey] at h
    split_ifs at h with hf
    · obtain h | h := List.mem_cons.1 h
      · exact .inl (Prod.mk.inj h)
      · exact .inr (List.mem_cons_of_mem _ h)
    · obtain h | h := List.mem_cons.1 h
      · exact .inr (h ▸ List.mem_cons_self)
      · exact (ih h).imp_right (List.mem_cons_of_mem _)

theorem mem_of_lookup {α : Type} {fields : List (Text × α)} {k : Text} {v : α}
    (h : fields.lookup k = some v) : (k, v) ∈ fields := by
  induction fields with
  | nil => cases h
  | cons f fields ih =>
    rw [List.lookup_cons] at h
    split at h
    · rename_i hk
      obtain rfl := Option.some.inj h
      rw [eq_of_beq hk]
      exact List.mem_cons_self
    · exact List.mem_cons_of_mem _ (ih h)

theorem mem_keys_setKey {α : Type} {fields : List (Text × α)} {k k' : Text} {v : α} :
    k' ∈ (setKey fields k v).map Prod.fst ↔ k' = k ∨ k' ∈ fields.map Prod.fst := by
  induction fields with
  | nil => simp [setKey]
  | cons f fields ih =>
    rw [setKey]
    split_ifs with h
    · simp [h]
    · rw [List.map_cons, List.mem_cons, ih, List.map_cons, List.mem_cons]
      exact or_left_comm

theorem nodup_keys_setKey {α : Type} {fields : List (Text × α)} (h : (fields.map Prod.fst).Nodup)
    (k : Text) (v : α) : ((setKey fields k v).map Prod.fst).Nodup := by
  induction fields with
  | nil => simp [setKey]
  | cons f fields ih =>
    rw [List.map_cons, List.nodup_cons] at h
    rw [setKey]
    split_ifs with hf
    · rw [List.map_cons, List.nodup_cons]
      exact ⟨hf ▸ h.1, h.2⟩
    · rw [List.map_cons, List.nodup_cons, mem_keys_setKey, not_or]
      exact ⟨⟨hf, h.1⟩, ih h.2⟩

/-! ### Writing -/

/-- The decimal digits of a natural. -/
def natText (n : ℕ) : Text :=
  if n = 0 then ['0'] else ((Nat.digits 10 n).map Nat.digitChar).reverse

/-- `str(n)` of an `int`. -/
def intText : ℤ → Text
  | .ofNat n => natText n
  | .negSucc n => '-' :: natText (n + 1)

/-- `\uXXXX`. -/
def unicodeEscape (n : ℕ) : Text :=
  ['\\', 'u', Nat.digitChar (n / 4096), Nat.digitChar (n / 256 % 16), Nat.digitChar (n / 16 % 16),
    Nat.digitChar (n % 16)]

/-- A character of a string, with `ensure_ascii`. -/
def escape (c : Char) : Text :=
  if c = '"' then ['\\', '"']
  else if c = '\\' then ['\\', '\\']
  else if c = '\n' then ['\\', 'n']
  else if c = '\r' then ['\\', 'r']
  else if c = '\t' then ['\\', 't']
  else if c = Char.ofNat 12 then ['\\', 'f']
  else if c = Char.ofNat 8 then ['\\', 'b']
  else if ' ' ≤ c ∧ c ≤ '~' then [c]
  else if c.toNat < 0x10000 then unicodeEscape c.toNat
  else
    unicodeEscape (0xD800 + (c.toNat - 0x10000) / 0x400) ++
      unicodeEscape (0xDC00 + (c.toNat - 0x10000) % 0x400)

/-- A string in quotes. -/
def quote (t : Text) : Text := '"' :: t.flatMap escape ++ ['"']

/-- A new line, indented to a level. -/
def newline (level : ℕ) : Text := '\n' :: List.replicate (2 * level) ' '

mutual

/-- `json.dumps(v, indent=2)` inside `level` containers. -/
def dump (level : ℕ) : Json → Text
  | .null => "null".toList
  | .bool true => "true".toList
  | .bool false => "false".toList
  | .int n => intText n
  | .str t => quote t
  | .arr [] => ['[', ']']
  | .arr (v :: vs) =>
    '[' :: (newline (level + 1) ++ (dump (level + 1) v ++ (dumpItems (level + 1) vs ++
      (newline level ++ [']']))))
  | .obj [] => ['{', '}']
  | .obj ((k, v) :: fields) =>
    '{' :: (newline (level + 1) ++ (quote k ++ (':' :: ' ' :: (dump (level + 1) v ++
      (dumpFields (level + 1) fields ++ (newline level ++ ['}']))))))

/-- The items after the first. -/
def dumpItems (level : ℕ) : List Json → Text
  | [] => []
  | v :: vs => ',' :: (newline level ++ (dump level v ++ dumpItems level vs))

/-- The fields after the first. -/
def dumpFields (level : ℕ) : List (Text × Json) → Text
  | [] => []
  | (k, v) :: fields =>
    ',' :: (newline level ++ (quote k ++ (':' :: ' ' :: (dump level v ++ dumpFields level fields))))

end

/-- `json.dumps(v, indent=2)`. -/
def dumps (v : Json) : Text := dump 0 v

/-! ### Reading -/

/-- An open container, and for an object the key whose value is read. -/
inductive Frame where
  | arr (items : List Json)
  | obj (fields : List (Text × Json)) (key : Text)

/-- What a string that is being read is for. -/
inductive Dest where
  | value (open_ : List Frame)
  | key (fields : List (Text × Json)) (open_ : List Frame)

/-- Where the reader of a string stands. -/
inductive StrState where
  | chars
  | escaped
  /-- In `\uXXXX`: the digits left, their value so far, and the high surrogate before it. -/
  | hex (left value : ℕ) (high : Option ℕ)
  /-- After a high surrogate. -/
  | low (high : ℕ)
  | lowEscaped (high : ℕ)

/-- Where the reader stands. -/
inductive State where
  | value (open_ : List Frame)
  | firstItem (open_ : List Frame)
  | afterItem (items : List Json) (open_ : List Frame)
  | firstKey (open_ : List Frame)
  | key (fields : List (Text × Json)) (open_ : List Frame)
  | colon (fields : List (Text × Json)) (key : Text) (open_ : List Frame)
  | afterField (fields : List (Text × Json)) (open_ : List Frame)
  | str (dest : Dest) (acc : Text) (s : StrState)
  | lit (rest : Text) (v : Json) (open_ : List Frame)
  | minus (open_ : List Frame)
  | zero (open_ : List Frame)
  | digits (neg : Bool) (n : ℕ) (open_ : List Frame)
  | done (v : Json)

/-- White space between tokens. -/
def isWs (c : Char) : Bool := c = ' ' || c = '\t' || c = '\n' || c = '\r'

/-- The value of a hexadecimal digit. -/
def hexVal (c : Char) : Option ℕ :=
  if '0' ≤ c ∧ c ≤ '9' then some (c.toNat - '0'.toNat)
  else if 'a' ≤ c ∧ c ≤ 'f' then some (c.toNat - 'a'.toNat + 10)
  else if 'A' ≤ c ∧ c ≤ 'F' then some (c.toNat - 'A'.toNat + 10)
  else none

/-- The character of `\uXXXX`, or the wait for the second half of a pair. -/
def unicodeStep (acc : Text) (high : Option ℕ) (n : ℕ) : Option (Text × StrState) :=
  match high with
  | none =>
    if 0xD800 ≤ n ∧ n ≤ 0xDBFF then some (acc, .low n)
    else if 0xDC00 ≤ n ∧ n ≤ 0xDFFF then none
    else some (acc ++ [Char.ofNat n], .chars)
  | some h =>
    if 0xDC00 ≤ n ∧ n ≤ 0xDFFF then
      some (acc ++ [Char.ofNat (0x10000 + (h - 0xD800) * 0x400 + (n - 0xDC00))], .chars)
    else none

/-- A character inside a string that does not close it. -/
def strStep (acc : Text) : StrState → Char → Option (Text × StrState)
  | .chars, c =>
    if c = '\\' then some (acc, .escaped) else if c < ' ' then none else some (acc ++ [c], .chars)
  | .escaped, c =>
    if c = '"' ∨ c = '\\' ∨ c = '/' then some (acc ++ [c], .chars)
    else if c = 'b' then some (acc ++ [Char.ofNat 8], .chars)
    else if c = 'f' then some (acc ++ [Char.ofNat 12], .chars)
    else if c = 'n' then some (acc ++ ['\n'], .chars)
    else if c = 'r' then some (acc ++ ['\r'], .chars)
    else if c = 't' then some (acc ++ ['\t'], .chars)
    else if c = 'u' then some (acc, .hex 4 0 none)
    else none
  | .hex left value high, c =>
    match hexVal c with
    | none => none
    | some d =>
      if left ≤ 1 then unicodeStep acc high (value * 16 + d)
      else some (acc, .hex (left - 1) (value * 16 + d) high)
  | .low high, c => if c = '\\' then some (acc, .lowEscaped high) else none
  | .lowEscaped high, c => if c = 'u' then some (acc, .hex 4 0 (some high)) else none

/-- The state after a value. -/
def deliver (v : Json) : List Frame → State
  | [] => .done v
  | .arr items :: K => .afterItem (items ++ [v]) K
  | .obj fields k :: K => .afterField (setKey fields k v) K

/-- The state after a string. -/
def deliverStr (t : Text) : Dest → State
  | .value K => deliver (.str t) K
  | .key fields K => .colon fields t K

/-- The first character of a value. -/
def startValue (K : List Frame) (c : Char) : Option State :=
  if c = '"' then some (.str (.value K) [] .chars)
  else if c = '{' then some (.firstKey K)
  else if c = '[' then some (.firstItem K)
  else if c = 'n' then some (.lit "ull".toList .null K)
  else if c = 't' then some (.lit "rue".toList (.bool true) K)
  else if c = 'f' then some (.lit "alse".toList (.bool false) K)
  else if c = '-' then some (.minus K)
  else if c = '0' then some (.zero K)
  else if c.isDigit then some (.digits false (c.toNat - '0'.toNat) K)
  else none

/-- A character after a value. -/
def stepAfter : State → Char → Option State
  | .afterItem items K, c =>
    if isWs c then some (.afterItem items K)
    else if c = ',' then some (.value (.arr items :: K))
    else if c = ']' then some (deliver (.arr items) K)
    else none
  | .afterField fields K, c =>
    if isWs c then some (.afterField fields K)
    else if c = ',' then some (.key fields K)
    else if c = '}' then some (deliver (.obj fields) K)
    else none
  | .done v, c => if isWs c then some (.done v) else none
  | _, _ => none

/-- The integer of digits. -/
def signed (neg : Bool) (n : ℕ) : ℤ := if neg then -n else n

/-- One character. -/
def step : State → Char → Option State
  | .value K, c => if isWs c then some (.value K) else startValue K c
  | .firstItem K, c =>
    if isWs c then some (.firstItem K)
    else if c = ']' then some (deliver (.arr []) K)
    else startValue (.arr [] :: K) c
  | .firstKey K, c =>
    if isWs c then some (.firstKey K)
    else if c = '}' then some (deliver (.obj []) K)
    else if c = '"' then some (.str (.key [] K) [] .chars)
    else none
  | .key fields K, c =>
    if isWs c then some (.key fields K)
    else if c = '"' then some (.str (.key fields K) [] .chars)
    else none
  | .colon fields k K, c =>
    if isWs c then some (.colon fields k K)
    else if c = ':' then some (.value (.obj fields k :: K))
    else none
  | .str dest acc .chars, c =>
    if c = '"' then some (deliverStr acc dest)
    else (strStep acc .chars c).map fun (acc, s) => .str dest acc s
  | .str dest acc s, c => (strStep acc s c).map fun (acc, s) => .str dest acc s
  | .lit rest v K, c =>
    match rest with
    | [] => none
    | c' :: rest =>
      if c = c' then if rest = [] then some (deliver v K) else some (.lit rest v K) else none
  | .minus K, c =>
    if c = '0' then some (.zero K)
    else if c.isDigit then some (.digits true (c.toNat - '0'.toNat) K)
    else none
  | .zero K, c => stepAfter (deliver (.int 0) K) c
  | .digits neg n K, c =>
    if c.isDigit then some (.digits neg (n * 10 + (c.toNat - '0'.toNat)) K)
    else stepAfter (deliver (.int (signed neg n)) K) c
  | s, c => stepAfter s c

/-- The value, if the text may end here. -/
def finish : State → Option Json
  | .done v => some v
  | .zero [] => some (.int 0)
  | .digits neg n [] => some (.int (signed neg n))
  | _ => none

/-- Reading on from a state. -/
def run (s : State) (t : Text) : Option State := t.foldlM step s

/-- `json.loads(t)`; `none` is `JSONDecodeError`. -/
def loads (t : Text) : Option Json := (run (.value []) t).bind finish

/-! ### Runs of the reader -/

@[simp] theorem run_nil (s : State) : run s [] = some s := rfl

theorem run_cons (s : State) (c : Char) (t : Text) : run s (c :: t) = (step s c).bind (run · t) :=
  List.foldlM_cons

theorem run_append (s : State) (t u : Text) : run s (t ++ u) = (run s t).bind (run · u) :=
  List.foldlM_append

theorem run_cons_of_step {s q : State} {c : Char} (h : step s c = some q) (t : Text) :
    run s (c :: t) = run q t := by
  rw [run_cons, h]
  rfl

theorem run_append_of_run {s s' : State} {t : Text} (h : run s t = some s') (u : Text) :
    run s (t ++ u) = run s' u := by
  rw [run_append, h]
  rfl

/-- White space that a state skips. -/
theorem run_newline {s : State} (h : ∀ c, isWs c = true → step s c = some s) (level : ℕ) :
    run s (newline level) = some s := by
  have hspaces : ∀ n, run s (List.replicate n ' ') = some s := by
    intro n
    induction n with
    | zero => rfl
    | succ n ih => rw [List.replicate_succ, run_cons_of_step (h ' ' rfl), ih]
  rw [newline, run_cons_of_step (h '\n' rfl), hspaces]

/-! ### Values that are read -/

/-- In the state `s` the value `v` is complete: what is not a digit is read as after `v`. -/
structure Ready (v : Json) (K : List Frame) (s : State) : Prop where
  step_eq : ∀ c : Char, c.isDigit = false → step s c = stepAfter (deliver v K) c
  finish_eq : K = [] → finish s = some v

theorem step_deliver (v : Json) (K : List Frame) (c : Char) :
    step (deliver v K) c = stepAfter (deliver v K) c := by
  cases K with
  | nil => rfl
  | cons f K => cases f <;> rfl

theorem ready_deliver (v : Json) (K : List Frame) : Ready v K (deliver v K) := by
  refine ⟨fun c _ => step_deliver v K c, ?_⟩
  rintro rfl
  rfl

/-- The text is read as the value `v`, wherever a value is expected. -/
def Reads (t : Text) (v : Json) : Prop := ∀ K, ∃ s, run (.value K) t = some s ∧ Ready v K s

theorem reads_of_deliver {t : Text} {v : Json} (h : ∀ K, run (.value K) t = some (deliver v K)) :
    Reads t v := fun K => ⟨_, h K, ready_deliver v K⟩

/-- What follows a value is read as after the value. -/
theorem Reads.run {t : Text} {v : Json} (h : Reads t v) (K : List Frame) {c : Char}
    (hc : c.isDigit = false) (u : Text) :
    run (.value K) (t ++ c :: u) = Json.run (deliver v K) (c :: u) := by
  obtain ⟨s, hs, hr⟩ := h K
  rw [run_append_of_run hs, run_cons, run_cons, hr.step_eq c hc, step_deliver]

/-! ### Numbers -/

theorem digitChar_spec : ∀ d < 10, (Nat.digitChar d).isDigit = true ∧
    (Nat.digitChar d).toNat - '0'.toNat = d := by decide

theorem digitChar_first : ∀ d < 10, d ≠ 0 → ∀ K, step (.value K) (Nat.digitChar d) =
    some (.digits false d K) ∧ step (.minus K) (Nat.digitChar d) = some (.digits true d K) := by
  intro d hd h0 K
  interval_cases d <;> first | exact absurd rfl h0 | exact ⟨rfl, rfl⟩

theorem run_digits (neg : Bool) (K : List Frame) (ds : List ℕ) : ∀ n, (∀ d ∈ ds, d < 10) →
    run (.digits neg n K) (ds.map Nat.digitChar) =
      some (.digits neg (ds.foldl (fun n d => n * 10 + d) n) K) := by
  induction ds with
  | nil => intro n _; rfl
  | cons d ds ih =>
    intro n h
    obtain ⟨hdig, hval⟩ := digitChar_spec d (h d List.mem_cons_self)
    have hstep : step (.digits neg n K) (Nat.digitChar d) = some (.digits neg (n * 10 + d) K) := by
      simp only [step, hdig, if_true, hval]
    rw [List.map_cons, run_cons_of_step hstep, ih _ fun e he => h e (List.mem_cons_of_mem _ he),
      List.foldl_cons]

theorem foldl_digits (n : ℕ) :
    (Nat.digits 10 n).reverse.foldl (fun m d => m * 10 + d) 0 = n := by
  conv_rhs => rw [← Nat.ofDigits_digits 10 n, Nat.ofDigits_eq_foldr]
  rw [List.foldl_reverse]
  congr 1
  funext d m
  simp only [Nat.cast_id]
  omega

/-- The digits of a positive number, the first of which is not zero. -/
theorem natText_pos {n : ℕ} (hn : n ≠ 0) :
    ∃ (d : ℕ) (ds : List ℕ), natText n = Nat.digitChar d :: ds.map Nat.digitChar ∧
      d < 10 ∧ d ≠ 0 ∧ (∀ e ∈ ds, e < 10) ∧ ds.foldl (fun m e => m * 10 + e) d = n := by
  have hne : Nat.digits 10 n ≠ [] := Nat.digits_ne_nil_iff_ne_zero.2 hn
  have hlast := Nat.getLast_digit_ne_zero 10 hn
  have hlt : ∀ d ∈ Nat.digits 10 n, d < 10 := fun d hd => Nat.digits_lt_base (by decide) hd
  have hfold := foldl_digits n
  rw [natText, if_neg hn]
  obtain ⟨d, ds, hds⟩ := List.exists_cons_of_ne_nil (mt List.reverse_eq_nil_iff.1 hne)
  have hmem : ∀ e ∈ d :: ds, e < 10 := fun e he =>
    hlt e (List.mem_reverse.1 (hds ▸ he))
  have hd : (Nat.digits 10 n).getLast hne = d := by
    rw [List.getLast_eq_head_reverse]
    simp only [hds, List.head_cons]
  refine ⟨d, ds, ?_, hmem d List.mem_cons_self, hd ▸ hlast,
    fun e he => hmem e (List.mem_cons_of_mem _ he), ?_⟩
  · rw [← List.map_reverse, hds, List.map_cons]
  · rw [hds, List.foldl_cons] at hfold
    simpa using hfold

theorem ready_digits (neg : Bool) (n : ℕ) (K : List Frame) :
    Ready (.int (signed neg n)) K (.digits neg n K) := by
  refine ⟨fun c hc => ?_, ?_⟩
  · simp [step, hc]
  · rintro rfl
    rfl

theorem reads_intText (n : ℤ) : Reads (intText n) (.int n) := by
  intro K
  cases n with
  | ofNat n =>
    by_cases hn : n = 0
    · subst hn
      exact ⟨.zero K, rfl, fun c _ => rfl, fun hK => by subst hK; rfl⟩
    · obtain ⟨d, ds, htext, hd, h0, hds, hfold⟩ := natText_pos hn
      refine ⟨.digits false n K, ?_, ready_digits false n K⟩
      rw [intText, htext, run_cons_of_step (digitChar_first d hd h0 K).1,
        run_digits _ _ _ _ hds, hfold]
  | negSucc n =>
    obtain ⟨d, ds, htext, hd, h0, hds, hfold⟩ := natText_pos (Nat.succ_ne_zero n)
    refine ⟨.digits true (n + 1) K, ?_, ready_digits true (n + 1) K⟩
    rw [intText, run_cons_of_step (q := .minus K) rfl, htext,
      run_cons_of_step (digitChar_first d hd h0 K).2, run_digits _ _ _ _ hds, hfold]

/-- Different integers have different digits. -/
theorem intText_injective {m n : ℤ} (h : intText m = intText n) : m = n := by
  obtain ⟨s, hs, hm⟩ := reads_intText m []
  obtain ⟨s', hs', hn⟩ := reads_intText n []
  rw [h, hs'] at hs
  obtain rfl := Option.some.inj hs
  have := (hm.finish_eq rfl).symm.trans (hn.finish_eq rfl)
  simpa using this

/-! ### Strings -/

theorem hexVal_digitChar : ∀ d < 16, hexVal (Nat.digitChar d) = some d := by decide

theorem step_str (dest : Dest) (acc : Text) {s : StrState} (hs : s ≠ .chars) (c : Char) :
    step (.str dest acc s) c = (strStep acc s c).map fun (acc, s) => .str dest acc s := by
  cases s with
  | chars => exact absurd rfl hs
  | _ => rfl

/-- Reading four hexadecimal digits. -/
theorem run_hex (dest : Dest) (acc : Text) (high : Option ℕ) {n : ℕ} (hn : n < 0x10000) (t : Text) :
    run (.str dest acc (.hex 4 0 high)) (Nat.digitChar (n / 4096) :: Nat.digitChar (n / 256 % 16) ::
        Nat.digitChar (n / 16 % 16) :: Nat.digitChar (n % 16) :: t) =
      (unicodeStep acc high n).bind fun (acc, s) => run (.str dest acc s) t := by
  have hhex : ∀ {left value d : ℕ}, 1 < left → d < 16 →
      step (.str dest acc (.hex left value high)) (Nat.digitChar d) =
        some (.str dest acc (.hex (left - 1) (value * 16 + d) high)) := by
    intro left value d hleft hd
    rw [step_str dest acc (by simp), strStep, hexVal_digitChar d hd]
    simp only [if_neg (not_le.2 hleft), Option.map_some]
  have hlast : ∀ {value d : ℕ}, d < 16 →
      step (.str dest acc (.hex 1 value high)) (Nat.digitChar d) =
        (unicodeStep acc high (value * 16 + d)).map fun (acc, s) => .str dest acc s := by
    intro value d hd
    rw [step_str dest acc (by simp), strStep, hexVal_digitChar d hd]
    rfl
  rw [run_cons_of_step (hhex (by decide) (by omega)),
    run_cons_of_step (hhex (by decide) (by omega)),
    run_cons_of_step (hhex (by decide) (by omega)), run_cons, hlast (by omega),
    show (((0 * 16 + n / 4096) * 16 + n / 256 % 16) * 16 + n / 16 % 16) * 16 + n % 16 = n by omega]
  cases unicodeStep acc high n <;> rfl

theorem run_unicodeEscape (dest : Dest) (acc : Text) {n : ℕ} (hn : n < 0x10000) (t : Text) :
    run (.str dest acc .chars) (unicodeEscape n ++ t) =
      (unicodeStep acc none n).bind fun (acc, s) => run (.str dest acc s) t := by
  simp only [unicodeEscape, List.cons_append, List.nil_append]
  rw [run_cons_of_step (q := .str dest acc .escaped) rfl,
    run_cons_of_step (q := .str dest acc (.hex 4 0 none)) rfl, run_hex dest acc none hn]

theorem run_lowEscape (dest : Dest) (acc : Text) (high : ℕ) {n : ℕ} (hn : n < 0x10000) (t : Text) :
    run (.str dest acc (.low high)) (unicodeEscape n ++ t) =
      (unicodeStep acc (some high) n).bind fun (acc, s) => run (.str dest acc s) t := by
  simp only [unicodeEscape, List.cons_append, List.nil_append]
  rw [run_cons_of_step (q := .str dest acc (.lowEscaped high)) rfl,
    run_cons_of_step (q := .str dest acc (.hex 4 0 (some high))) rfl, run_hex dest acc _ hn]

/-- A character is not a surrogate. -/
theorem not_surrogate (c : Char) : ¬ (0xD800 ≤ c.toNat ∧ c.toNat ≤ 0xDFFF) ∧
    c.toNat < 0x110000 := by
  have h := c.valid
  have hc : c.val.toNat = c.toNat := rfl
  simp only [UInt32.isValidChar, Nat.isValidChar, hc] at h
  omega

/-- Reading an escaped character. -/
theorem run_escape (dest : Dest) (acc : Text) (c : Char) (t : Text) :
    run (.str dest acc .chars) (escape c ++ t) = run (.str dest (acc ++ [c]) .chars) t := by
  rw [escape]
  have hshort : ∀ e, step (.str dest acc .escaped) e = some (.str dest (acc ++ [c]) .chars) →
      run (.str dest acc .chars) (['\\', e] ++ t) = run (.str dest (acc ++ [c]) .chars) t := by
    intro e he
    rw [List.cons_append, run_cons_of_step (q := .str dest acc .escaped) rfl, List.cons_append,
      run_cons_of_step he, List.nil_append]
  obtain ⟨hsur, hmax⟩ := not_surrogate c
  split_ifs with h1 h2 h3 h4 h5 h6 h7 hplain hbmp
  · subst h1; exact hshort '"' rfl
  · subst h2; exact hshort '\\' rfl
  · subst h3; exact hshort 'n' rfl
  · subst h4; exact hshort 'r' rfl
  · subst h5; exact hshort 't' rfl
  · subst h6; exact hshort 'f' rfl
  · subst h7; exact hshort 'b' rfl
  · have hstep : step (.str dest acc .chars) c = some (.str dest (acc ++ [c]) .chars) := by
      have hge : ¬ c < ' ' := Char.not_lt.2 hplain.1
      simp only [step, if_neg h1, strStep, if_neg h2, if_neg hge, Option.map_some]
    rw [List.cons_append, run_cons_of_step hstep, List.nil_append]
  · -- one `\uXXXX`
    rw [run_unicodeEscape dest acc hbmp]
    simp only [unicodeStep]
    rw [if_neg (by omega), if_neg (by omega), Char.ofNat_toNat]
    rfl
  · -- a pair of surrogates
    rw [List.append_assoc, run_unicodeEscape dest acc (by omega)]
    simp only [unicodeStep]
    rw [if_pos (by omega), Option.bind_some, run_lowEscape dest acc _ (by omega)]
    simp only [unicodeStep]
    rw [if_pos (by omega), Option.bind_some,
      show 0x10000 + (0xD800 + (c.toNat - 0x10000) / 0x400 - 0xD800) * 0x400 +
        (0xDC00 + (c.toNat - 0x10000) % 0x400 - 0xDC00) = c.toNat by omega, Char.ofNat_toNat]

theorem run_chars (dest : Dest) (t : Text) : ∀ (acc u : Text),
    run (.str dest acc .chars) (t.flatMap escape ++ '"' :: u) =
      run (deliverStr (acc ++ t) dest) u := by
  induction t with
  | nil =>
    intro acc u
    rw [List.append_nil]
    exact run_cons_of_step rfl u
  | cons c t ih =>
    intro acc u
    rw [List.flatMap_cons, List.append_assoc, run_escape, ih, List.append_assoc, List.cons_append,
      List.nil_append]

/-- Reading a string in quotes, where its opening quote is read. -/
theorem run_quote {s : State} {d : Dest} (h : step s '"' = some (.str d [] .chars)) (t u : Text) :
    run s (quote t ++ u) = run (deliverStr t d) u := by
  rw [quote, List.cons_append, List.cons_append, run_cons_of_step h, List.append_assoc,
    List.cons_append, List.nil_append, run_chars, List.nil_append]

/-! ### The round trip -/

mutual

/-- The keys of every object in the value are distinct, as those of a `dict` are. -/
def Distinct : Json → Prop
  | .arr items => DistinctItems items
  | .obj fields => (fields.map Prod.fst).Nodup ∧ DistinctFields fields
  | _ => True

/-- The keys in every item are distinct. -/
def DistinctItems : List Json → Prop
  | [] => True
  | v :: vs => Distinct v ∧ DistinctItems vs

/-- The keys in the value of every field are distinct. -/
def DistinctFields : List (Text × Json) → Prop
  | [] => True
  | (_, v) :: fields => Distinct v ∧ DistinctFields fields

end

theorem setKey_of_notMem {α : Type} {fields : List (Text × α)} {k : Text}
    (h : k ∉ fields.map Prod.fst) (v : α) : setKey fields k v = fields ++ [(k, v)] := by
  induction fields with
  | nil => rfl
  | cons f fields ih =>
    rw [List.map_cons, List.mem_cons, not_or] at h
    rw [setKey, if_neg (Ne.symm h.1), ih h.2, List.cons_append]

/-- No value starts with white space or a closing bracket. -/
theorem dump_head (level : ℕ) (v : Json) :
    ∃ c t, dump level v = c :: t ∧ isWs c = false ∧ c ≠ ']' := by
  cases v with
  | null => exact ⟨'n', _, rfl, by decide, by decide⟩
  | bool b => cases b <;> exact ⟨_, _, rfl, by decide, by decide⟩
  | int n =>
    have hdigit : ∀ d < 10, isWs (Nat.digitChar d) = false ∧ Nat.digitChar d ≠ ']' := by decide
    cases n with
    | ofNat n =>
      by_cases hn : n = 0
      · subst hn
        exact ⟨'0', [], rfl, by decide, by decide⟩
      · obtain ⟨d, ds, htext, hd, -⟩ := natText_pos hn
        exact ⟨Nat.digitChar d, _, by rw [dump, intText, htext], hdigit d hd⟩
    | negSucc n => exact ⟨'-', _, by rw [dump, intText], by decide, by decide⟩
  | str t => exact ⟨'"', _, by rw [dump, quote, List.cons_append], by decide, by decide⟩
  | arr items => cases items <;> exact ⟨'[', _, by rw [dump], by decide, by decide⟩
  | obj fields =>
    cases fields with
    | nil => exact ⟨'{', _, by rw [dump], by decide, by decide⟩
    | cons f fields => exact ⟨'{', _, by rw [dump], by decide, by decide⟩

/-- The first item is read as any other. -/
theorem run_firstItem (K : List Frame) (level : ℕ) (v : Json) (u : Text) :
    run (.firstItem K) (dump level v ++ u) = run (.value (.arr [] :: K)) (dump level v ++ u) := by
  obtain ⟨c, t, hd, hws, hc⟩ := dump_head level v
  have hstep : step (.firstItem K) c = step (.value (.arr [] :: K)) c := by
    simp only [step, hws, if_neg hc, Bool.false_eq_true, if_false]
  rw [hd, List.cons_append, run_cons, run_cons, hstep]

/-- After an item comes no digit. -/
theorem Reads.run_items {t : Text} {v : Json} (h : Reads t v) (K : List Frame) (vs : List Json)
    (level outer : ℕ) (u : Text) :
    Json.run (.value K) (t ++ (dumpItems level vs ++ (newline outer ++ u))) =
      Json.run (deliver v K) (dumpItems level vs ++ (newline outer ++ u)) := by
  cases vs with
  | nil => exact h.run K (c := '\n') (by decide) _
  | cons w ws =>
    rw [dumpItems, List.cons_append]
    exact h.run K (by decide) _

/-- After a field comes no digit. -/
theorem Reads.run_fields {t : Text} {v : Json} (h : Reads t v) (K : List Frame)
    (fields : List (Text × Json)) (level outer : ℕ) (u : Text) :
    Json.run (.value K) (t ++ (dumpFields level fields ++ (newline outer ++ u))) =
      Json.run (deliver v K) (dumpFields level fields ++ (newline outer ++ u)) := by
  cases fields with
  | nil => exact h.run K (c := '\n') (by decide) _
  | cons w ws =>
    rw [dumpFields, List.cons_append]
    exact h.run K (by decide) _

theorem run_value_newline (K : List Frame) (level : ℕ) (u : Text) :
    run (.value K) (newline level ++ u) = run (.value K) u :=
  run_append_of_run (run_newline (fun c hc => by simp only [step, hc, if_true]) level) u

theorem run_key_newline (fields : List (Text × Json)) (K : List Frame) (level : ℕ) (u : Text) :
    run (.key fields K) (newline level ++ u) = run (.key fields K) u :=
  run_append_of_run (run_newline (fun c hc => by simp only [step, hc, if_true]) level) u

theorem run_close_arr (items : List Json) (K : List Frame) (level : ℕ) :
    run (.afterItem items K) (newline level ++ [']']) = some (deliver (.arr items) K) := by
  rw [run_append_of_run
    (run_newline (fun c hc => by simp only [step, stepAfter, hc, if_true]) level)]
  rfl

theorem run_close_obj (fields : List (Text × Json)) (K : List Frame) (level : ℕ) :
    run (.afterField fields K) (newline level ++ ['}']) = some (deliver (.obj fields) K) := by
  rw [run_append_of_run
    (run_newline (fun c hc => by simp only [step, stepAfter, hc, if_true]) level)]
  rfl

/-- A key, its colon and the blank after it. -/
theorem run_key {s : State} {f : List (Text × Json)} {K : List Frame} {k : Text}
    (h : step s '"' = some (.str (.key f K) [] .chars)) (u : Text) :
    run s (quote k ++ (':' :: ' ' :: u)) = run (.value (.obj f k :: K)) u := by
  rw [run_quote h, deliverStr, run_cons_of_step (q := .value (.obj f k :: K)) rfl,
    run_cons_of_step (q := .value (.obj f k :: K)) rfl]

mutual

/-- Reading what `dump` wrote delivers the value. -/
theorem run_dump : ∀ (v : Json) (level : ℕ), Distinct v → Reads (dump level v) v
  | .null, _, _ => reads_of_deliver fun K => by rw [dump]; rfl
  | .bool true, _, _ => reads_of_deliver fun K => by rw [dump]; rfl
  | .bool false, _, _ => reads_of_deliver fun K => by rw [dump]; rfl
  | .int n, _, _ => by rw [dump]; exact reads_intText n
  | .str t, _, _ => reads_of_deliver fun K => by
      have h := run_quote (s := .value K) (d := .value K) rfl t []
      rwa [List.append_nil, run_nil, ← dump] at h
  | .arr [], _, _ => reads_of_deliver fun K => by rw [dump]; rfl
  | .arr (v :: vs), level, h => reads_of_deliver fun K => by
      rw [Distinct, DistinctItems] at h
      rw [dump, run_cons_of_step (q := .firstItem K) rfl,
        run_append_of_run (run_newline (fun c hc => by simp only [step, hc, if_true]) _),
        run_firstItem,
        (run_dump v (level + 1) h.1).run_items, deliver, run_dumpItems vs (level + 1) h.2,
          run_close_arr]
      rfl
  | .obj [], _, _ => reads_of_deliver fun K => by rw [dump]; rfl
  | .obj ((k, v) :: fields), level, h => reads_of_deliver fun K => by
      rw [Distinct, DistinctFields] at h
      rw [dump, run_cons_of_step (q := .firstKey K) rfl,
        run_append_of_run (run_newline (fun c hc => by simp only [step, hc, if_true]) _),
        run_key (f := []) (K := K) rfl, (run_dump v (level + 1) h.2.1).run_fields, deliver, setKey,
        run_dumpFields fields (level + 1) h.2.2 _ _ _ _ h.1, run_close_obj]
      rfl

/-- Reading the items after the first. -/
theorem run_dumpItems : ∀ (vs : List Json) (level : ℕ), DistinctItems vs → ∀ (items : List Json)
    (K : List Frame) (outer : ℕ) (u : Text),
      run (.afterItem items K) (dumpItems level vs ++ (newline outer ++ u)) =
        run (.afterItem (items ++ vs) K) (newline outer ++ u)
  | [], _, _, items, K, outer, u => by rw [dumpItems, List.append_nil, List.nil_append]
  | v :: vs, level, h, items, K, outer, u => by
      rw [DistinctItems] at h
      rw [dumpItems, List.cons_append, run_cons_of_step (q := .value (.arr items :: K)) rfl,
        List.append_assoc, run_value_newline, List.append_assoc, (run_dump v level h.1).run_items,
        deliver, run_dumpItems vs level h.2, List.append_assoc]
      rfl

/-- Reading the fields after the first. -/
theorem run_dumpFields : ∀ (fields : List (Text × Json)) (level : ℕ), DistinctFields fields →
    ∀ (acc : List (Text × Json)) (K : List Frame) (outer : ℕ) (u : Text),
      ((acc ++ fields).map Prod.fst).Nodup →
      run (.afterField acc K) (dumpFields level fields ++ (newline outer ++ u)) =
        run (.afterField (acc ++ fields) K) (newline outer ++ u)
  | [], _, _, acc, K, outer, u, _ => by rw [dumpFields, List.append_nil, List.nil_append]
  | (k, v) :: fields, level, h, acc, K, outer, u, hk => by
      rw [DistinctFields] at h
      have hnew : k ∉ acc.map Prod.fst := by
        rw [List.map_append, List.map_cons, List.nodup_append] at hk
        exact fun hmem => hk.2.2 k hmem k List.mem_cons_self rfl
      have hassoc : acc ++ (k, v) :: fields = (acc ++ [(k, v)]) ++ fields := by
        rw [List.append_assoc, List.cons_append, List.nil_append]
      rw [dumpFields, List.cons_append, run_cons_of_step (q := .key acc K) rfl, List.append_assoc,
        run_key_newline, List.append_assoc, List.cons_append, List.cons_append,
        run_key (f := acc) (K := K) rfl, List.append_assoc, (run_dump v level h.1).run_fields,
        deliver, setKey_of_notMem hnew, hassoc,
          run_dumpFields fields level h.2 _ _ _ _ (hassoc ▸ hk)]

end

/-- Reading inverts writing. -/
theorem loads_dumps {v : Json} (h : Distinct v) : loads (dumps v) = some v := by
  obtain ⟨s, hs, hr⟩ := run_dump v 0 h []
  rw [loads, dumps, hs]
  exact hr.finish_eq rfl

/-! ### Prefixes -/

/-- Where a text may end, only white space and digits may follow. -/
theorem step_of_finish {s s' : State} {c : Char} (hs : finish s ≠ none) (h : step s c = some s') :
    finish s' ≠ none ∧ c ≠ '}' := by
  have hafter : ∀ v, step (.done v) c = some s' → finish s' ≠ none ∧ c ≠ '}' := by
    intro v hv
    simp only [step, stepAfter] at hv
    split_ifs at hv with hws
    obtain rfl := Option.some.inj hv
    refine ⟨Option.some_ne_none v, ?_⟩
    rintro rfl
    exact absurd hws (by decide)
  cases s with
  | done v => exact hafter v h
  | zero K =>
    cases K with
    | nil => exact hafter (.int 0) h
    | cons f K => exact absurd rfl hs
  | digits neg n K =>
    cases K with
    | nil =>
      by_cases hc : c.isDigit = true
      · simp only [step, hc, if_true, Option.some.injEq] at h
        subst h
        refine ⟨Option.some_ne_none _, ?_⟩
        rintro rfl
        exact absurd hc (by decide)
      · simp only [step, hc, if_false, Bool.false_eq_true] at h
        exact hafter _ h
    | cons f K => exact absurd rfl hs
  | _ => exact absurd rfl hs

theorem run_of_finish (t : Text) : ∀ {s s' : State}, finish s ≠ none →
    run s t = some s' → '}' ∉ t := by
  induction t with
  | nil => intro s s' _ _; exact List.not_mem_nil
  | cons c t ih =>
    intro s s' hs h
    rw [run_cons, Option.bind_eq_some_iff] at h
    obtain ⟨s₁, h₁, h₂⟩ := h
    obtain ⟨hfin, hc⟩ := step_of_finish hs h₁
    rw [List.mem_cons, not_or]
    exact ⟨Ne.symm hc, ih hfin h₂⟩

/-- A text that goes on with a `}` after a prefix is accepted only if the prefix is not. -/
theorem loads_eq_none {t u : Text} (h : loads (t ++ u) ≠ none) (hu : '}' ∈ u) : loads t = none := by
  by_contra ht
  rw [loads] at h ht
  rw [run_append] at h
  cases hr : run (.value []) t with
  | none => rw [hr] at ht; exact ht rfl
  | some s =>
    rw [hr, Option.bind_some] at h ht
    cases hru : run s u with
    | none => rw [hru] at h; exact h rfl
    | some s' => exact run_of_finish u ht hru hu

/-- Of an object that was written, no proper prefix is accepted. -/
theorem loads_take_dumps {fields : List (Text × Json)} (h : Distinct (.obj fields)) {t : Text}
    (ht : t <+: dumps (.obj fields)) (hne : t ≠ dumps (.obj fields)) : loads t = none := by
  obtain ⟨u, hu⟩ := ht
  have hlast : ∃ w, dumps (.obj fields) = w ++ ['}'] := by
    cases fields with
    | nil => exact ⟨['{'], by rw [dumps, dump]; rfl⟩
    | cons f fields =>
      refine ⟨'{' :: (newline 1 ++ (quote f.1 ++ (':' :: ' ' :: (dump 1 f.2 ++
        (dumpFields 1 fields ++ newline 0))))), ?_⟩
      rw [dumps, dump]
      simp only [List.append_assoc, List.cons_append]
  refine loads_eq_none (u := u) (by rw [hu, loads_dumps h]; exact Option.some_ne_none _) ?_
  obtain ⟨w, hw⟩ := hlast
  have hune : u ≠ [] := by
    rintro rfl
    exact hne (by rw [← hu, List.append_nil])
  have hlastu : u.getLast hune = '}' := by
    have hlist : (t ++ u).getLast (by simp [hune]) = '}' := by
      simp only [hu, hw, List.getLast_append_singleton]
    rwa [List.getLast_append_of_ne_nil _ hune] at hlist
  exact hlastu ▸ List.getLast_mem hune

end Json

end Py
