import Glm53Serve.BenchAb.RunArm
import Glm53Serve.Py.Json
import Mathlib.Data.Finset.Card

/-!
# The evidence of the restarts

Every arm is to run in an engine of its own. `probe_boot_id` of `bench-ab.py` identifies the engine
that an arm ran in, and `boot_warnings` warns where the identities of the arms do not show a restart
for each of them.

## The model

What the probe reads of `/metrics` is the boot label, empty where there is none, and the process
start. A record is a name and a boot, each of which may be missing.

## What is proved

* `probeBootId_fromEngine` — the probe names the engine where the metrics identify it.
* `bootWarnings_eq_nil` — the records without a warning.
* `bootWarnings_complete_iff` — the records for which the silence is evidence. Three arms of which
  two share an engine are the smallest that pass without a warning.
-/

namespace Glm53Serve.BenchAb

open Py

/-! ### The identity of a boot -/

/-! The sources of an id. -/

def metricsLabel : Text := "metrics-label".toList
def metricsProcessStart : Text := "metrics-process-start".toList
def hostBoot : Text := "host-boot".toList

theorem metricsLabel_ne : metricsLabel ≠ hostBoot := by decide

theorem metricsProcessStart_ne : metricsProcessStart ≠ hostBoot := by decide

/-- The `id` and `source` of `probe_boot_id`. -/
def probeBootId (metricBoot : Text) (processStart : Option ℤ) (hostId : Option Text) : Boot :=
  if metricBoot ≠ [] then ⟨"metrics-boot:".toList ++ metricBoot, metricsLabel⟩
  else
    match processStart with
    | some start => ⟨"process-start:".toList ++ Json.intText start, metricsProcessStart⟩
    | none =>
      if hostId.getD [] ≠ [] then ⟨"host-boot:".toList ++ hostId.getD [], hostBoot⟩
      else ⟨[], "unavailable".toList⟩

/-- The boot is one of an engine. -/
def Boot.FromEngine (b : Boot) : Prop := b.id ≠ [] ∧ b.source ≠ hostBoot

instance (b : Boot) : Decidable b.FromEngine := inferInstanceAs (Decidable (_ ∧ _))

/-- The probe names the engine where the metrics identify it. -/
theorem probeBootId_fromEngine {metricBoot : Text} {processStart : Option ℤ}
    {hostId : Option Text} :
    (probeBootId metricBoot processStart hostId).FromEngine ↔
      metricBoot ≠ [] ∨ processStart.isSome := by
  unfold probeBootId
  by_cases hlabel : metricBoot = []
  · rw [if_neg (not_not.mpr hlabel)]
    cases processStart with
    | some start => exact iff_of_true ⟨List.append_ne_nil_of_left_ne_nil (by decide) _,
        metricsProcessStart_ne⟩ (.inr rfl)
    | none =>
      refine iff_of_false (fun h => ?_) (by simp [hlabel])
      by_cases hhost : hostId.getD [] = []
      · rw [if_neg (not_not.mpr hhost)] at h
        exact h.1 rfl
      · rw [if_pos hhost] at h
        exact h.2 rfl
  · rw [if_pos hlabel]
    exact iff_of_true ⟨List.append_ne_nil_of_left_ne_nil (by decide) _, metricsLabel_ne⟩
      (.inl hlabel)

/-! ### Warnings -/

/-- What `boot_warnings` reads of an arm. -/
structure ArmRecord where
  name : Option Text
  /-- `none` where it is no object. -/
  boot : Option Boot

def ArmRecord.bootOrEmpty (arm : ArmRecord) : Boot := arm.boot.getD ⟨[], []⟩

/-- `boots`: name, id and source of every arm. -/
def boots (arms : List ArmRecord) : List (Text × Boot) :=
  arms.map fun arm => (arm.name.getD "?".toList, arm.bootOrEmpty)

/-- `", ".join(names)`. -/
def commaJoin (names : List Text) : Text := List.intercalate ", ".toList names

/-- `missing`. -/
def missing (bs : List (Text × Boot)) : List Text := (bs.filter fun b => b.2.id = []).map (·.1)

/-- `host_only`. -/
def hostOnly (bs : List (Text × Boot)) : List Text :=
  (bs.filter fun b => b.2.id ≠ [] && b.2.source = hostBoot).map (·.1)

/-- The ids of `known`. -/
def known (bs : List (Text × Boot)) : List Text := (bs.map (·.2.id)).filter (· ≠ [])

/-- `boot_warnings`. -/
def bootWarnings (arms : List ArmRecord) (restartRequired : Bool) : List Text :=
  let bs := boots arms
  if restartRequired then
    (if missing bs ≠ [] then
      ["engine boot id unavailable for arm(s) ".toList ++ commaJoin (missing bs) ++
        "; cannot prove each arm used a distinct restart".toList]
    else []) ++
    (if hostOnly bs ≠ [] then
      ["only host boot id available for arm(s) ".toList ++ commaJoin (hostOnly bs) ++
        "; an engine restart inside the same host boot is invisible".toList]
    else []) ++
    (if 2 ≤ (known bs).length ∧ (known bs).dedup.length = 1 then
      ["all arms report the same boot identity (".toList ++ (known bs).headD [] ++
        "); the restart protocol may not have taken effect".toList]
    else [])
  else
    ["--no-restart: arm environment overrides are not applied by the harness; ".toList ++
      "measurements are only valid if the server was provisioned externally".toList] ++
    (if 1 < (known bs).dedup.length then
      ["--no-restart: the engine boot changed between arms outside harness control".toList]
    else [])

/-! ### Silence -/

variable {arms : List ArmRecord}

/-- The arm ran in an engine that is identified. -/
def ArmRecord.FromEngine (arm : ArmRecord) : Prop := arm.bootOrEmpty.FromEngine

def ArmRecord.bootId (arm : ArmRecord) : Text := arm.bootOrEmpty.id

/-- The records show that each arm ran in an engine of its own. -/
structure RestartsShown (arms : List ArmRecord) : Prop where
  engine : ∀ arm ∈ arms, arm.FromEngine
  apart : (arms.map ArmRecord.bootId).Nodup

theorem missing_eq_nil : missing (boots arms) = [] ↔ ∀ arm ∈ arms, arm.bootId ≠ [] := by
  simp [missing, boots, List.filter_eq_nil_iff, ArmRecord.bootId]

theorem hostOnly_eq_nil : hostOnly (boots arms) = [] ↔
    ∀ arm ∈ arms, arm.bootId ≠ [] → arm.bootOrEmpty.source ≠ hostBoot := by
  simp [hostOnly, boots, List.filter_eq_nil_iff, ArmRecord.bootId]

/-- Where every arm has an id, the known ids are those of all arms. -/
theorem known_eq (h : ∀ arm ∈ arms, arm.bootId ≠ []) :
    known (boots arms) = arms.map ArmRecord.bootId := by
  have hids : (boots arms).map (·.2.id) = arms.map ArmRecord.bootId := by
    rw [boots, List.map_map]
    rfl
  rw [known, hids, List.filter_eq_self]
  intro id hid
  obtain ⟨arm, harm, rfl⟩ := List.mem_map.mp hid
  exact decide_eq_true (h arm harm)

/-- The records without a warning. -/
theorem bootWarnings_eq_nil : bootWarnings arms true = [] ↔
    (∀ arm ∈ arms, arm.FromEngine) ∧
      ¬(2 ≤ arms.length ∧ (arms.map ArmRecord.bootId).dedup.length = 1) := by
  have hsplit : bootWarnings arms true = [] ↔
    missing (boots arms) = [] ∧ hostOnly (boots arms) = [] ∧
      ¬(2 ≤ (known (boots arms)).length ∧ (known (boots arms)).dedup.length = 1) := by
    simp only [bootWarnings, ↓reduceIte, List.append_eq_nil_iff, and_assoc]
    split_ifs <;> simp_all
  rw [hsplit, missing_eq_nil, hostOnly_eq_nil]
  constructor
  · rintro ⟨hid, hsource, hshared⟩
    rw [known_eq hid, List.length_map] at hshared
    exact ⟨fun arm harm => ⟨hid arm harm, hsource arm harm (hid arm harm)⟩, hshared⟩
  · rintro ⟨hengine, hshared⟩
    have hid : ∀ arm ∈ arms, arm.bootId ≠ [] := fun arm harm => (hengine arm harm).1
    rw [known_eq hid, List.length_map]
    exact ⟨hid, fun arm harm _ => (hengine arm harm).2, hshared⟩

/-- A list with one distinct element. -/
theorem dedup_length_le_one {l : List Text} : l.dedup.length ≤ 1 ↔ ∀ a ∈ l, ∀ b ∈ l, a = b := by
  rw [← List.card_toFinset, Finset.card_le_one]
  simp only [List.mem_toFinset]

/-- No warning means distinct restarts, unless there are arms whose engine is identified, and of
these some share it and some do not. -/
theorem bootWarnings_complete_iff : (bootWarnings arms true = [] → RestartsShown arms) ↔
    (∃ arm ∈ arms, ¬arm.FromEngine) ∨ (arms.map ArmRecord.bootId).Nodup ∨
      ∀ arm ∈ arms, ∀ arm' ∈ arms, arm.bootId = arm'.bootId := by
  rw [bootWarnings_eq_nil]
  constructor
  · intro h
    by_cases hengine : ∀ arm ∈ arms, arm.FromEngine
    · refine .inr ?_
      by_cases hshared : 2 ≤ arms.length ∧ (arms.map ArmRecord.bootId).dedup.length = 1
      · refine .inr fun arm harm arm' harm' => ?_
        exact dedup_length_le_one.mp hshared.2.le _ (List.mem_map_of_mem harm) _
          (List.mem_map_of_mem harm')
      · exact .inl (h ⟨hengine, hshared⟩).apart
    · simp only [not_forall] at hengine
      obtain ⟨arm, harm, hnot⟩ := hengine
      exact .inl ⟨arm, harm, hnot⟩
  · rintro hcase ⟨hengine, hshared⟩
    refine ⟨hengine, ?_⟩
    rcases hcase with ⟨arm, harm, hnot⟩ | hnodup | hsame
    · exact absurd (hengine arm harm) hnot
    · exact hnodup
    · -- one engine for two arms or more would be reported
      have hone : (arms.map ArmRecord.bootId).dedup.length ≤ 1 :=
          dedup_length_le_one.mpr fun a ha b hb => by
        obtain ⟨arm, harm, rfl⟩ := List.mem_map.mp ha
        obtain ⟨arm', harm', rfl⟩ := List.mem_map.mp hb
        exact hsame arm harm arm' harm'
      match arms with
      | [] => exact List.nodup_nil
      | [arm] => exact List.nodup_singleton _
      | arm :: arm' :: rest =>
        have hpos := List.length_pos_of_mem (List.mem_dedup.mpr (List.mem_map_of_mem
          (f := ArmRecord.bootId) (List.mem_cons_self : arm ∈ arm :: arm' :: rest)))
        exact absurd ⟨Nat.le_add_left 2 rest.length, Nat.le_antisymm hone hpos⟩ hshared

/-- Three arms, the first two in one engine. -/
def sharedByTwo : List ArmRecord :=
  [⟨some "a".toList, some ⟨"process-start:1".toList, metricsProcessStart⟩⟩,
    ⟨some "b".toList, some ⟨"process-start:1".toList, metricsProcessStart⟩⟩,
    ⟨some "c".toList, some ⟨"process-start:2".toList, metricsProcessStart⟩⟩]

theorem bootWarnings_sharedByTwo :
    ¬(bootWarnings sharedByTwo true = [] → RestartsShown sharedByTwo) := by
  intro h
  have hnil : bootWarnings sharedByTwo true = [] := by decide
  exact absurd (h hnil).apart (by decide)

end Glm53Serve.BenchAb
