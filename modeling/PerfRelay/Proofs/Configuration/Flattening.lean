import PerfRelay.Configuration.Basic
import PerfRelay.Proofs.Dictionary

/-!
# Many configurations as one

The output streams of many configurations are entered from the first to the last, and the settings
are looked for from the last to the first.  Both come to the same: the last configuration that has
something to say decides, and what the others say is not mixed in.

Main results:

- Theorem `get?_streamMapping`: the entered streams are those that a search from the end finds.
- Theorem `lastGives_iff`: what a search from the end finds.
- Theorems `flattens` and `lastDecides`: the mapping and the settings of many configurations.
-/

namespace PerfRelay

namespace Configuration

/-- The output streams of a configuration under their data types. -/
def streams (configuration : Configuration) : Dictionary String :=
  .ofList configuration.outputStreams

/-- Where each data type occurs once, a configuration has the streams that are listed in it. -/
theorem get?_streams_eq_some_iff {configuration : Configuration}
    (h : (configuration.outputStreams.map (·.1)).Nodup) {dataType stream : String} :
    configuration.streams.get? dataType = some stream ↔
      (dataType, stream) ∈ configuration.outputStreams :=
  Dictionary.get?_ofList_eq_some_iff h

theorem get?_streams_eq_none_iff {configuration : Configuration} {dataType : String} :
    configuration.streams.get? dataType = none ↔
      dataType ∉ configuration.outputStreams.map (·.1) := by
  rw [Dictionary.get?_eq_none_iff, streams, Dictionary.mem_keys_ofList]

theorem givenSettings?_eq_some_iff {configuration : Configuration} {settings : Settings} :
    configuration.givenSettings? = some settings ↔
      configuration.settings = some settings ∧ settings.isEmpty = false := by
  rw [givenSettings?, Option.filter_eq_some_iff, Bool.not_eq_true']

end Configuration

/-! ## The last configuration that gives something -/

/-- The last one of some configurations that gives anything gives this. -/
inductive LastGives {α : Type} (give : Configuration → Option α) :
    List Configuration → α → Prop where
  | found {before after : List Configuration} {configuration : Configuration} {a : α}
      (h : give configuration = some a) (hafter : ∀ later ∈ after, give later = none) :
      LastGives give (before ++ configuration :: after) a

/-- A search from the end finds what the last one gives. -/
theorem lastGives_iff {α : Type} {give : Configuration → Option α}
    {configurations : List Configuration} {a : α} :
    configurations.reverse.findSome? give = some a ↔ LastGives give configurations a := by
  rw [List.findSome?_eq_some_iff]
  constructor
  · rintro ⟨after, configuration, before, hreverse, hgive, hafter⟩
    have hwhole : configurations = before.reverse ++ configuration :: after.reverse := by
      rw [← List.reverse_reverse configurations, hreverse, List.reverse_append, List.reverse_cons,
        List.append_assoc, List.singleton_append]
    rw [hwhole]
    refine .found hgive fun later hlater => hafter later ?_
    exact List.mem_reverse.1 hlater
  · intro h
    cases h with
    | @found before after configuration _ hgive hafter =>
      refine ⟨after.reverse, configuration, before.reverse, ?_, hgive, ?_⟩
      · rw [List.reverse_append, List.reverse_cons, List.append_assoc, List.singleton_append]
      · intro later hlater
        exact hafter later (List.mem_reverse.1 hlater)

/-- Entering all streams from the first configuration to the last one leaves those that a search
from the end finds.  The induction is on the configurations, from the end. -/
theorem get?_streamMapping (configurations : List Configuration) (dataType : String) :
    (streamMapping configurations).get? dataType =
      configurations.reverse.findSome? (·.streams.get? dataType) := by
  induction configurations using List.reverseRecOn with
  | nil => rfl
  | append_singleton configurations configuration ih =>
    rw [streamMapping_append, Dictionary.get?_insertAll, List.flatMap_singleton, ih,
      List.reverse_append, List.reverse_singleton, List.singleton_append, List.findSome?_cons,
      Configuration.streams]
    cases (Dictionary.ofList configuration.outputStreams).get? dataType <;> rfl

/-! ## Two lists of configurations -/

/-- How two lists of configurations come together. -/
structure Flattens (first second : List Configuration) : Prop where
  /-- The streams of the second list are entered over those of the first one. -/
  mapping : streamMapping (first ++ second) =
    (streamMapping first).insertAll (streamMapping second).entries
  /-- So the second list decides where it has a stream. -/
  stream : ∀ dataType, (streamMapping (first ++ second)).get? dataType =
    ((streamMapping second).get? dataType).or ((streamMapping first).get? dataType)
  /-- Each data type of the two lists has a stream, and no other one. -/
  dataTypes : ∀ dataType, dataType ∈ (streamMapping (first ++ second)).keys ↔
    dataType ∈ (streamMapping first).keys ∨ dataType ∈ (streamMapping second).keys
  /-- The settings are those of one list: of the second one if there are any in it. -/
  settings : latestSettings (first ++ second) =
    if ∃ configuration ∈ second, configuration.givenSettings?.isSome then latestSettings second
    else latestSettings first

theorem get?_streamMapping_append (first second : List Configuration) (dataType : String) :
    (streamMapping (first ++ second)).get? dataType =
      ((streamMapping second).get? dataType).or ((streamMapping first).get? dataType) := by
  rw [get?_streamMapping, get?_streamMapping, get?_streamMapping, List.reverse_append,
    List.findSome?_append]

/-- A list has settings just if one of its configurations has. -/
theorem isSome_latestSettings {configurations : List Configuration} :
    (latestSettings configurations).isSome = true ↔
      ∃ configuration ∈ configurations, configuration.givenSettings?.isSome = true := by
  rw [latestSettings, List.findSome?_isSome_iff]
  simp only [List.mem_reverse]

theorem flattens (first second : List Configuration) : Flattens first second := by
  constructor
  case mapping =>
    apply Dictionary.ext_get?
    intro dataType
    rw [get?_streamMapping_append, Dictionary.get?_insertAll, Dictionary.ofList_entries]
  case stream =>
    exact get?_streamMapping_append first second
  case dataTypes =>
    intro dataType
    simp only [Dictionary.mem_keys_iff, ← Option.isSome_iff_exists, get?_streamMapping_append,
      Option.isSome_or, Bool.or_eq_true]
    exact or_comm
  case settings =>
    rw [latestSettings_append]
    split_ifs with hsome
    · obtain ⟨settings, hsettings⟩ := Option.isSome_iff_exists.1 (isSome_latestSettings.2 hsome)
      rw [hsettings, Option.some_or]
    · have hnone : latestSettings second = none := by
        rw [← Option.not_isSome_iff_eq_none, isSome_latestSettings]
        exact hsome
      rw [hnone, Option.none_or]

/-! ## One list of configurations -/

variable {configurations : List Configuration}

/-- What a list of configurations comes to. -/
structure LastDecides (configurations : List Configuration) : Prop where
  /-- A data type has the stream that the last configuration with one gives it. -/
  stream : ∀ dataType stream, (streamMapping configurations).get? dataType = some stream ↔
    LastGives (·.streams.get? dataType) configurations stream
  /-- Where each data type occurs once in a configuration, it is the stream that the last
  configuration with that data type lists for it. -/
  listed : (∀ configuration ∈ configurations, (configuration.outputStreams.map (·.1)).Nodup) →
    ∀ dataType stream, (streamMapping configurations).get? dataType = some stream ↔
      ∃ before configuration after, configurations = before ++ configuration :: after ∧
        (dataType, stream) ∈ configuration.outputStreams ∧
        ∀ later ∈ after, dataType ∉ later.outputStreams.map (·.1)
  /-- The settings are those of the last configuration that has any. -/
  settings : ∀ settings, latestSettings configurations = some settings ↔
    LastGives (·.givenSettings?) configurations settings
  /-- They are never empty, and one configuration has them as they are. -/
  given : ∀ settings, latestSettings configurations = some settings →
    settings.isEmpty = false ∧
      ∃ configuration ∈ configurations, configuration.settings = some settings
  /-- There are none only if no configuration has settings that are not empty. -/
  none_iff : latestSettings configurations = none ↔
    ∀ configuration ∈ configurations, ∀ settings, configuration.settings = some settings →
      settings.isEmpty = true

/-- Where each data type occurs once in a configuration, the last one that gives a stream is the
last one that lists the data type. -/
theorem lastGives_streams_iff (hdistinct : ∀ configuration ∈ configurations,
    (configuration.outputStreams.map (·.1)).Nodup) {dataType stream : String} :
    LastGives (·.streams.get? dataType) configurations stream ↔
      ∃ before configuration after, configurations = before ++ configuration :: after ∧
        (dataType, stream) ∈ configuration.outputStreams ∧
        ∀ later ∈ after, dataType ∉ later.outputStreams.map (·.1) := by
  constructor
  · intro h
    cases h with
    | @found before after configuration _ hgive hafter =>
      have hnodup := hdistinct configuration (List.mem_append_right _ List.mem_cons_self)
      refine ⟨before, configuration, after, rfl,
        (Configuration.get?_streams_eq_some_iff hnodup).1 hgive, fun later hlater => ?_⟩
      exact Configuration.get?_streams_eq_none_iff.1 (hafter later hlater)
  · rintro ⟨before, configuration, after, rfl, hmem, hafter⟩
    have hnodup := hdistinct configuration (List.mem_append_right _ List.mem_cons_self)
    refine .found ((Configuration.get?_streams_eq_some_iff hnodup).2 hmem) fun later hlater => ?_
    exact Configuration.get?_streams_eq_none_iff.2 (hafter later hlater)

theorem latestSettings_eq_none_iff :
    latestSettings configurations = none ↔
      ∀ configuration ∈ configurations, ∀ settings, configuration.settings = some settings →
        settings.isEmpty = true := by
  rw [← Option.not_isSome_iff_eq_none, isSome_latestSettings]
  constructor
  · intro hnone configuration hmem settings hgiven
    by_contra hsome
    have hgives := Configuration.givenSettings?_eq_some_iff.2 ⟨hgiven, Bool.eq_false_iff.2 hsome⟩
    exact hnone ⟨configuration, hmem, Option.isSome_iff_exists.2 ⟨settings, hgives⟩⟩
  · rintro hempty ⟨configuration, hmem, hsome⟩
    obtain ⟨settings, hgives⟩ := Option.isSome_iff_exists.1 hsome
    obtain ⟨hgiven, hfalse⟩ := Configuration.givenSettings?_eq_some_iff.1 hgives
    rw [hempty configuration hmem settings hgiven] at hfalse
    cases hfalse

theorem lastDecides (configurations : List Configuration) : LastDecides configurations := by
  have hstream : ∀ dataType stream, (streamMapping configurations).get? dataType = some stream ↔
      LastGives (·.streams.get? dataType) configurations stream := by
    intro dataType stream
    rw [get?_streamMapping]
    exact lastGives_iff
  have hsettings : ∀ settings, latestSettings configurations = some settings ↔
      LastGives (·.givenSettings?) configurations settings := fun _ => lastGives_iff
  constructor
  case stream =>
    exact hstream
  case listed =>
    intro hdistinct dataType stream
    exact (hstream dataType stream).trans (lastGives_streams_iff hdistinct)
  case settings =>
    exact hsettings
  case given =>
    intro settings hlatest
    cases (hsettings settings).1 hlatest with
    | found hgive _ =>
      obtain ⟨hgiven, hsome⟩ := Configuration.givenSettings?_eq_some_iff.1 hgive
      exact ⟨hsome, _, List.mem_append_right _ List.mem_cons_self, hgiven⟩
  case none_iff =>
    exact latestSettings_eq_none_iff

end PerfRelay
