import Glm53Serve.Lib.MapM
import Glm53Serve.Py.Text

/-!
# Arms and paths of the A/B harness

`bench-ab.py` runs every benchmark under every arm of a comparison. An arm is a name with
environment overrides; the files of an arm's benchmark are named after a slug of the arm's
name.

## The model

`parse_arm`, `parse_arms`, `parse_bench_selection`, `_slug` and the file names. The output
directory is one and the same for a run of the harness, so a path is the name of its file.
The pattern of an arm's name may end before a newline, which a stripped name does not have.

## What is proved

* `parseArms_spec` — the arms of a run have distinct names of the pattern.
* `slug_eq` — the slug of such a name is the name without the punctuation at its end.
* `artifactPath_inj`, `logPath_inj` — a path determines the slug and the benchmark.
-/

namespace Glm53Serve.BenchAb

open Py

/-! ### Arms -/

/-- What `ArmSpecError` reports. -/
inductive ArmSpecError where
  | emptySpec
  | missingName
  | invalidName (name : Text)
  | emptyOverrides (name : Text)
  | emptySegment (name : Text)
  | missingEquals (name piece : Text)
  | invalidKey (name key : Text)
  | duplicateKey (name key : Text)
  | newline (name key : Text)
  | duplicateArm (name : Text)
  deriving DecidableEq

/-- An arm: its name and its overrides. -/
structure Arm where
  name : Text
  env : List (Text × Text)
  spec : Text
  deriving DecidableEq

/-- `t.partition(c)`: what is before the first `c`, whether there is one, and what is after. -/
def partition (c : Char) (t : Text) : Text × Bool × Text :=
  let rest := t.dropWhile (· ≠ c)
  (t.takeWhile (· ≠ c), !rest.isEmpty, rest.tail)

/-- A character of `[A-Za-z0-9._-]`. -/
def nameChar (c : Char) : Bool := c.isAlphanum || c = '.' || c = '_' || c = '-'

/-- `_ARM_NAME_RE.match(name)` of a stripped name. -/
def armNameRe : Text → Bool
  | [] => false
  | c :: t => c.isAlphanum && t.all nameChar

/-- `_ENV_KEY_RE.match(key)` of a stripped key. -/
def envKeyRe : Text → Bool
  | [] => false
  | c :: t => (c.isAlpha || c = '_') && t.all fun c => c.isAlphanum || c = '_'

/-- One turn of the loop of `parse_arm` over the overrides. -/
def parseOverride (name : Text) (env : List (Text × Text)) (item : Text) :
    Except ArmSpecError (List (Text × Text)) := do
  let piece := strip item
  if piece = [] then throw (.emptySegment name)
  let (key, equals, value) := partition '=' piece
  let key := strip key
  if !equals then throw (.missingEquals name piece)
  if !envKeyRe key then throw (.invalidKey name key)
  if key ∈ env.map (·.1) then throw (.duplicateKey name key)
  if '\n' ∈ value ∨ '\r' ∈ value then throw (.newline name key)
  return env ++ [(key, value)]

/-- `parse_arm(spec)`. -/
def parseArm (spec : Text) : Except ArmSpecError Arm := do
  let raw := strip spec
  if raw = [] then throw .emptySpec
  let (name, separator, envText) := partition ':' raw
  let name := strip name
  if name = [] then throw .missingName
  if !armNameRe name then throw (.invalidName name)
  if separator ∧ strip envText = [] then throw (.emptyOverrides name)
  let env ← if separator then (envText.splitOn ',').foldlM (parseOverride name) [] else pure []
  return ⟨name, env, raw⟩

/-- The loop of `parse_arms` that looks for a name again. -/
def checkNames (seen : List Text) : List Arm → Except ArmSpecError Unit
  | [] => .ok ()
  | arm :: arms =>
    if arm.name ∈ seen then .error (.duplicateArm arm.name) else checkNames (arm.name :: seen) arms

/-- `parse_arms(specs)`. -/
def parseArms (specs : List Text) : Except ArmSpecError (List Arm) := do
  let arms ← (if specs = [] then ["baseline".toList] else specs).mapM parseArm
  checkNames [] arms
  return arms

/-! ### What is accepted -/

theorem parseArm_name {spec : Text} {arm : Arm} (h : parseArm spec = .ok arm) :
    armNameRe arm.name = true := by
  simp only [parseArm, bind, Except.bind, pure, Except.pure, throw, throwThe,
    MonadExceptOf.throw] at h
  repeat' split at h
  all_goals cases h
  all_goals simp_all

theorem checkNames_ok {arms : List Arm} : ∀ {seen : List Text}, checkNames seen arms = .ok () →
    (arms.map (·.name)).Nodup ∧ ∀ arm ∈ arms, arm.name ∉ seen := by
  induction arms with
  | nil => exact fun _ => ⟨List.nodup_nil, fun arm h => nomatch h⟩
  | cons arm arms ih =>
    intro seen h
    rw [checkNames] at h
    split_ifs at h with hseen
    obtain ⟨hnodup, hnot⟩ := ih h
    refine ⟨List.nodup_cons.mpr ⟨fun hmem => ?_, hnodup⟩, fun arm' harm' => ?_⟩
    · obtain ⟨arm', harm', he⟩ := List.mem_map.mp hmem
      exact hnot arm' harm' (he ▸ List.mem_cons_self)
    · rcases List.mem_cons.mp harm' with rfl | harm'
      · exact hseen
      · exact fun hmem => hnot arm' harm' (List.mem_cons_of_mem _ hmem)

/-- The arms of a run: there is one, the names are distinct, and each has the pattern. -/
theorem parseArms_spec {specs : List Text} {arms : List Arm} (h : parseArms specs = .ok arms) :
    arms ≠ [] ∧ (arms.map (·.name)).Nodup ∧ ∀ arm ∈ arms, armNameRe arm.name = true := by
  simp only [parseArms, bind, Except.bind, pure, Except.pure] at h
  split at h
  · cases h
  rename_i arms' hmap
  split at h
  · cases h
  rename_i hcheck
  cases h
  refine ⟨?_, (checkNames_ok hcheck).1, fun arm harm => ?_⟩
  · rintro rfl
    rw [Except.mapM_ok_iff, List.forall₂_nil_right_iff] at hmap
    split_ifs at hmap with hs
    exact hs hmap
  · obtain ⟨spec, -, hspec⟩ := Except.exists_of_mem_mapM hmap harm
    exact parseArm_name hspec

/-! ### Benchmarks -/

/-- The registered benchmarks. -/
inductive Bench where
  | decodeStructured
  | decodeProse
  | prefixCache
  | cacheSessions
  | shortChat
  deriving DecidableEq

namespace Bench

/-- `spec.name`. -/
def name : Bench → Text
  | decodeStructured => "decode_structured".toList
  | decodeProse => "decode_prose".toList
  | prefixCache => "prefix_cache".toList
  | cacheSessions => "cache_sessions".toList
  | shortChat => "short_chat".toList

/-- `BENCHMARKS`, in the order of registration. -/
def all : List Bench := [decodeStructured, decodeProse, prefixCache, cacheSessions, shortChat]

/-- `spec.run_direct` is set: the benchmark runs in the harness, not as a process. -/
def direct (b : Bench) : Bool := b = shortChat

end Bench

/-- `parse_bench_selection(names)`; `none` is an unknown benchmark. -/
def parseBenchSelection (names : List Text) : Option (List Bench) :=
  if names = [] then some Bench.all
  else
    names.foldlM
      (fun selected n => (Bench.all.find? (·.name = n)).map fun b =>
        if b ∈ selected then selected else selected ++ [b]) []

theorem selection_foldlM {names : List Text} : ∀ {selected benches : List Bench},
    names.foldlM (fun selected n => (Bench.all.find? (·.name = n)).map fun b =>
      if b ∈ selected then selected else selected ++ [b]) selected = some benches →
    selected.Nodup → benches.Nodup ∧ (names ≠ [] ∨ selected ≠ [] → benches ≠ []) := by
  induction names with
  | nil =>
    rintro selected benches h hnodup
    obtain rfl := Option.some.inj h
    exact ⟨hnodup, fun hne => hne.resolve_left (fun hn => hn rfl)⟩
  | cons n names ih =>
    intro selected benches h hnodup
    rw [List.foldlM_cons, Option.bind_eq_bind, Option.bind_eq_some_iff] at h
    obtain ⟨selected', hstep, h⟩ := h
    obtain ⟨b, -, rfl⟩ := Option.map_eq_some_iff.mp hstep
    split_ifs at h with hb
    · obtain ⟨hn, hne⟩ := ih h hnodup
      exact ⟨hn, fun _ => hne (.inr (List.ne_nil_of_mem hb))⟩
    · obtain ⟨hn, hne⟩ :=
        ih h (by simpa [List.nodup_append] using ⟨hnodup, fun a ha hab => hb (hab ▸ ha)⟩)
      exact ⟨hn, fun _ => hne (.inr (by simp))⟩

/-- The selected benchmarks are distinct, and there is one. -/
theorem parseBenchSelection_spec {names : List Text} {benches : List Bench}
    (h : parseBenchSelection names = some benches) : benches ≠ [] ∧ benches.Nodup := by
  rw [parseBenchSelection] at h
  split_ifs at h with hn
  · obtain rfl := Option.some.inj h
    decide
  · obtain ⟨hnodup, hne⟩ := selection_foldlM h List.nodup_nil
    exact ⟨hne (.inl hn), hnodup⟩

/-! ### Slugs and paths -/

/-- `re.sub(r"[^A-Za-z0-9._-]+", "_", t)`, after a run of other characters or not. -/
def squash (inRun : Bool) : Text → Text
  | [] => []
  | c :: t =>
    if nameChar c then c :: squash false t
    else if inRun then squash true t
    else '_' :: squash true t

/-- A character of `._-`. -/
def isPunct (c : Char) : Bool := c = '.' || c = '_' || c = '-'

/-- `_slug(name)`. -/
def slug (name : Text) : Text :=
  let s := ((squash false name).rdropWhile isPunct).dropWhile isPunct
  if s = [] then "arm".toList else s

/-- `out_dir / f"\x7b_slug(arm.name)\x7d__\x7bbench_name\x7d.json"`. -/
def artifactPath (arm : Arm) (b : Bench) : Text :=
  slug arm.name ++ "__".toList ++ b.name ++ ".json".toList

/-- `out_dir / f"\x7b_slug(arm.name)\x7d__\x7bbench_name\x7d.log"`. -/
def logPath (arm : Arm) (b : Bench) : Text :=
  slug arm.name ++ "__".toList ++ b.name ++ ".log".toList

/-- The name without the punctuation at its end. -/
def trimmed (name : Text) : Text := name.rdropWhile isPunct

theorem squash_of_nameChar {t : Text} (h : ∀ c ∈ t, nameChar c = true) : squash false t = t := by
  induction t with
  | nil => rfl
  | cons c t ih =>
    rw [squash, if_pos (h c List.mem_cons_self), ih fun c' hc' => h c' (List.mem_cons_of_mem _ hc')]

theorem rdropWhile_cons {p : Char → Bool} {c : Char} (h : p c = false) (t : Text) :
    (c :: t).rdropWhile p = c :: t.rdropWhile p := by
  rw [List.rdropWhile, List.reverse_cons, List.dropWhile_append]
  split_ifs with ht
  · rw [List.rdropWhile, List.isEmpty_iff.mp ht]
    simp [h]
  · rw [List.reverse_append, List.rdropWhile]
    rfl

/-- The slug of a name that an arm can have. -/
theorem slug_eq {name : Text} (h : armNameRe name = true) : slug name = trimmed name := by
  cases name with
  | nil => cases h
  | cons c t =>
    rw [armNameRe, Bool.and_eq_true, List.all_eq_true] at h
    obtain ⟨hc, ht⟩ := h
    have hp : isPunct c = false := by
      rw [isPunct, Bool.eq_false_iff]
      intro hp
      simp only [Bool.or_eq_true, decide_eq_true_eq] at hp
      rcases hp with (rfl | rfl) | rfl <;> exact absurd hc (by decide)
    have hall : ∀ c' ∈ c :: t, nameChar c' = true := by
      intro c' hc'
      rcases List.mem_cons.mp hc' with rfl | hc'
      · simp [nameChar, hc]
      · exact ht c' hc'
    rw [slug, squash_of_nameChar hall, rdropWhile_cons hp,
      List.dropWhile_cons_of_neg (by simp [hp]),
      trimmed, rdropWhile_cons hp]
    exact if_neg (List.cons_ne_nil _ _)

/-- No benchmark's name ends another one's. -/
theorem Bench.eq_of_suffix (b b' : Bench) (h : b.name <:+ b'.name) : b = b' := by
  revert h
  cases b <;> cases b' <;> decide

theorem bench_inj {s s' : Text} {b b' : Bench} (h : s ++ b.name = s' ++ b'.name) :
    s = s' ∧ b = b' := by
  have hb : b = b' := by
    rcases List.suffix_or_suffix_of_suffix ⟨s, h⟩ ⟨s', rfl⟩ with hsuf | hsuf
    · exact b.eq_of_suffix b' hsuf
    · exact (b'.eq_of_suffix b hsuf).symm
  subst hb
  exact ⟨List.append_cancel_right h, rfl⟩

theorem artifactPath_inj {arm arm' : Arm} {b b' : Bench} :
    artifactPath arm b = artifactPath arm' b' ↔ slug arm.name = slug arm'.name ∧ b = b' := by
  constructor
  · intro h
    obtain ⟨hs, hb⟩ := bench_inj (List.append_cancel_right h)
    exact ⟨List.append_cancel_right hs, hb⟩
  · rintro ⟨hs, rfl⟩
    rw [artifactPath, artifactPath, hs]

theorem logPath_inj {arm arm' : Arm} {b b' : Bench} :
    logPath arm b = logPath arm' b' ↔ slug arm.name = slug arm'.name ∧ b = b' := by
  constructor
  · intro h
    obtain ⟨hs, hb⟩ := bench_inj (List.append_cancel_right h)
    exact ⟨List.append_cancel_right hs, hb⟩
  · rintro ⟨hs, rfl⟩
    rw [logPath, logPath, hs]

/-- No artifact is a log. -/
theorem artifactPath_ne_logPath (arm arm' : Arm) (b b' : Bench) :
    artifactPath arm b ≠ logPath arm' b' := by
  intro h
  have hr := congrArg List.reverse h
  simp [artifactPath, logPath] at hr

end Glm53Serve.BenchAb
