import Mathlib.Data.List.Forall2
import PerfRelay.Configuration.ContainerLogs
import PerfRelay.Policy.Basic
import PerfRelay.Proofs.Configuration.Spellings
import PerfRelay.Proofs.Text.ByteOrder

/-!
# Objects that are spelled otherwise

Under a name, settings hold what the object that they were made from has under the greatest of the
spellings of that name, in the order of their bytes.  So where every name has one spelling, it does
not matter which one that is: the settings, and with them whatever is made of settings, stay the
same if the names are spelled otherwise.

Main results:

- Theorem `Settings.get?_eq_some_iff`: the greatest spelling of a name decides.
- Theorem `Settings.ofDictionary_of_respells`: settings do not depend on the spelling of the names.
- Theorem `settings_ignore_case`: nothing that is made of settings does.
-/

namespace PerfRelay

/-! ## The spelling that decides -/

namespace Settings

variable {raw other : Dictionary Json.Value} {name : String}

/-- An object holds a value under a spelling of a name, and no other spelling of the name that it
has is greater in the order of the bytes. -/
structure UnderGreatest (raw : Dictionary Json.Value) (name : String) (spelling : String)
    (value : Json.Value) : Prop where
  get?_eq : raw.get? spelling = some value
  spells : lowerCase spelling = lowerCase name
  greatest : ∀ key ∈ raw.keys, lowerCase key = lowerCase name →
    Utf8.encode key ≤ Utf8.encode spelling

theorem mem_keys_spellings {key : String} :
    key ∈ (spellings name raw).keys ↔ key ∈ raw.keys ∧ lowerCase key = lowerCase name := by
  rw [Dictionary.mem_keys_iff, Dictionary.mem_keys_iff, spellings, Dictionary.get?_filterKeys]
  by_cases hkey : lowerCase key = lowerCase name
  · simp [hkey]
  · simp [hkey]

/-- The greatest spelling of a name decides. -/
theorem get?_eq_some_iff {value : Json.Value} :
    (ofDictionary raw).get? name = some value ↔
      ∃ spelling, UnderGreatest raw name spelling value := by
  have hget : ∀ spelling, (spellings name raw).get? spelling = some value ↔
      lowerCase spelling = lowerCase name ∧ raw.get? spelling = some value := by
    intro spelling
    rw [spellings, Dictionary.get?_filterKeys, Option.ite_none_right_eq_some, decide_eq_true_eq]
  rw [get?_ofDictionary, Option.map_eq_some_iff]
  constructor
  · rintro ⟨⟨spelling, _⟩, hlast, rfl⟩
    obtain ⟨hentry, hgreatest⟩ := Dictionary.getLast?_entries_eq_some_iff.1 hlast
    obtain ⟨hspells, hraw⟩ := (hget spelling).1 hentry
    refine ⟨spelling, hraw, hspells, fun key hkey hlower => ?_⟩
    exact Utf8.encode_le_encode_iff.2 (hgreatest key (mem_keys_spellings.2 ⟨hkey, hlower⟩))
  · rintro ⟨spelling, hraw, hspells, hgreatest⟩
    refine ⟨(spelling, value), Dictionary.getLast?_entries_eq_some_iff.2 ⟨?_, ?_⟩, rfl⟩
    · exact (hget spelling).2 ⟨hspells, hraw⟩
    · intro key hkey
      obtain ⟨hmem, hlower⟩ := mem_keys_spellings.1 hkey
      exact Utf8.encode_le_encode_iff.1 (hgreatest key hmem hlower)

/-- Only where an object has no spelling of a name, settings have nothing under it. -/
theorem get?_eq_none_iff :
    (ofDictionary raw).get? name = none ↔ ∀ key ∈ raw.keys, lowerCase key ≠ lowerCase name := by
  rw [get?_ofDictionary, Option.map_eq_none_iff, List.getLast?_eq_none_iff,
    ← List.isEmpty_iff, ← Dictionary.isEmpty, Dictionary.isEmpty_iff]
  apply forall_congr'
  intro key
  rw [Dictionary.get?_eq_none_iff, mem_keys_spellings, not_and]

/-- Settings are without entries only if the object is. -/
theorem isEmpty_ofDictionary : (ofDictionary raw).isEmpty = true ↔ raw.isEmpty = true :=
  Dictionary.isEmpty_rename

/-! ## Other spellings -/

/-- Each name has one spelling in the first object, and the second one is the same object with the
names spelled otherwise. -/
structure Respells (raw other : Dictionary Json.Value) : Prop where
  keepsApart : raw.KeepsApart lowerCase
  exists_rename : ∃ respell : String → String,
    (∀ key ∈ raw.keys, lowerCase (respell key) = lowerCase key) ∧ other = raw.rename respell

/-- Settings do not depend on how the names are spelled. -/
theorem ofDictionary_of_respells (h : Respells raw other) :
    ofDictionary other = ofDictionary raw := by
  obtain ⟨respell, hlower, rfl⟩ := h.exists_rename
  have hlowered : raw.KeepsApart (lowerCase ∘ respell) := by
    intro a ha b hb heq
    apply h.keepsApart a ha b hb
    rw [← hlower a ha, ← hlower b hb]
    exact heq
  have hrespelled : raw.KeepsApart respell :=
    fun a ha b hb heq => hlowered a ha b hb (congrArg lowerCase heq)
  have hrename : (raw.rename respell).rename lowerCase = raw.rename lowerCase := by
    rw [Dictionary.rename_rename hrespelled hlowered]
    exact Dictionary.rename_congr hlower
  exact congrArg Settings.mk hrename

end Settings

/-! ## What is made of settings -/

/-- A configuration whose settings are made from an object, if it has one. -/
def Configuration.ofRaw (raw : List (String × String) × Option (Dictionary Json.Value)) :
    Configuration :=
  ⟨raw.1, raw.2.map .ofDictionary⟩

/-- Two configurations have the same output streams, and both have no settings, or the same ones
with names that may be spelled otherwise. -/
inductive SpelledAlike : List (String × String) × Option (Dictionary Json.Value) →
    List (String × String) × Option (Dictionary Json.Value) → Prop where
  | bare (streams : List (String × String)) : SpelledAlike (streams, none) (streams, none)
  | given {raw other : Dictionary Json.Value} (streams : List (String × String))
      (h : Settings.Respells raw other) : SpelledAlike (streams, some raw) (streams, some other)

theorem SpelledAlike.ofRaw_eq {first second : List (String × String) ×
    Option (Dictionary Json.Value)} (h : SpelledAlike first second) :
    Configuration.ofRaw second = Configuration.ofRaw first := by
  cases h with
  | bare => rfl
  | given streams hrespells =>
    rw [Configuration.ofRaw, Configuration.ofRaw, Option.map_some, Option.map_some,
      Settings.ofDictionary_of_respells hrespells]

/-- Settings have under a name what the object has under its greatest spelling, and nothing if it
has none; they are empty only if the object is.  If no two names of the object have the same lower
case and the names are spelled otherwise, the policy with all that is noted about it and the switch
for container logs stay the same, and so do the routes of container logs if this is done in any list
of configurations. -/
theorem settings_ignore_case (raw : Dictionary Json.Value) :
    (∀ name value, (Settings.ofDictionary raw).get? name = some value ↔
      ∃ spelling, Settings.UnderGreatest raw name spelling value) ∧
    (∀ name, (Settings.ofDictionary raw).get? name = none ↔
      ∀ key ∈ raw.keys, lowerCase key ≠ lowerCase name) ∧
    ((Settings.ofDictionary raw).isEmpty = true ↔ raw = .empty) ∧
    (∀ other, Settings.Respells raw other →
      (∀ prior, Policy.resolve (some (.ofDictionary other)) prior =
        Policy.resolve (some (.ofDictionary raw)) prior) ∧
      Policy.resolveNotes (some (.ofDictionary other)) =
        Policy.resolveNotes (some (.ofDictionary raw)) ∧
      (Settings.ofDictionary other).containerLogsEnabled =
        (Settings.ofDictionary raw).containerLogsEnabled) ∧
    ∀ given spelled, List.Forall₂ SpelledAlike given spelled →
      ContainerLogs.routes (spelled.map Configuration.ofRaw) =
        ContainerLogs.routes (given.map Configuration.ofRaw) := by
  refine ⟨fun _ _ => Settings.get?_eq_some_iff, fun _ => Settings.get?_eq_none_iff, ?_, ?_, ?_⟩
  · rw [Settings.isEmpty_ofDictionary]
    constructor
    · intro hempty
      exact Dictionary.ext (List.isEmpty_iff.1 hempty)
    · rintro rfl
      rfl
  · intro other h
    rw [Settings.ofDictionary_of_respells h]
    exact ⟨fun _ => rfl, rfl, rfl⟩
  · intro given spelled h
    have hlist : spelled.map Configuration.ofRaw = given.map Configuration.ofRaw := by
      induction h with
      | nil => rfl
      | cons hfirst _ ih => rw [List.map_cons, List.map_cons, hfirst.ofRaw_eq, ih]
    rw [hlist]

/-- An object with the names in capital letters. -/
def inCapitals : Dictionary Json.Value :=
  .ofList [("INTERVAL", .string "7m"), ("NAMESPACES", .array [.string "app"]),
    ("ENABLECONTAINERLOGV2", .bool true), ("ΟΔΟΣ", .null)]

/-- Other spellings of these names, one of them with a sigma at its end. -/
def respelled (key : String) : String :=
  if key = "INTERVAL" then "Interval"
  else if key = "NAMESPACES" then "namespaces"
  else if key = "ΟΔΟΣ" then "οδος"
  else "enableContainerLogV2"

/-- The interval, the switch and the routes stay, and of two spellings of a name the greater one
decides. -/
theorem settings_ignore_case_inCapitals :
    Settings.Respells inCapitals (inCapitals.rename respelled) ∧
      (Policy.resolve (some (.ofDictionary (inCapitals.rename respelled)))
        (.initial 5)).intervalSeconds = 420 ∧
      (Settings.ofDictionary (inCapitals.rename respelled)).containerLogsEnabled = true ∧
      (ContainerLogs.routes [.ofRaw ([("ContainerInsights_ContainerLogV2", "dcr-a")],
        some (inCapitals.rename respelled))]).get? "app" = some ["dcr-a"] ∧
      (Settings.ofDictionary (.ofList [("interval", .string "2m"), ("Interval", .string "1m")])).get?
        "INTERVAL" = some (.string "2m") := by
  have hrespells : Settings.Respells inCapitals (inCapitals.rename respelled) := by
    refine ⟨?_, respelled, by decide +kernel, rfl⟩
    unfold Dictionary.KeepsApart
    decide +kernel
  obtain ⟨-, -, -, hrest, hroutes⟩ := settings_ignore_case inCapitals
  obtain ⟨hpolicy, -, hswitch⟩ := hrest _ hrespells
  refine ⟨hrespells, ?_, ?_, ?_, ?_⟩
  · rw [hpolicy]
    decide +kernel
  · rw [hswitch]
    decide +kernel
  · have hsame := hroutes _ _ (.cons (.given [("ContainerInsights_ContainerLogV2", "dcr-a")]
      hrespells) .nil)
    rw [List.map_singleton] at hsame
    rw [hsame]
    decide +kernel
  · obtain ⟨hget, -⟩ := settings_ignore_case
      (.ofList [("interval", .string "2m"), ("Interval", .string "1m")])
    refine (hget _ _).2 ⟨"interval", ?_, ?_, ?_⟩
    · simp [Dictionary.get?_ofList]
    · decide +kernel
    · decide +kernel

end PerfRelay
