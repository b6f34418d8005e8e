import PerfRelay.Configuration.Settings
import PerfRelay.Journal

/-!
# Configurations

The agent answers with a list of configurations.  Each one routes data types to output streams and
may have data collection settings.  The list as a whole gives one mapping, in which later
configurations overrule earlier ones, and one group of settings, that of the last configuration that
has any.

Main results:

- Theorem `streamMapping_append`: the mapping of a list is that of its first part overruled by that
  of its second part.
- Theorem `latestSettings_append`: the settings of the second part win if it has any.
-/

namespace PerfRelay

/-- The configuration of an extension. -/
structure Configuration where
  /-- The output streams of data types.  Each data type occurs once; the order has no meaning. -/
  outputStreams : List (String × String)
  settings : Option Settings

namespace Configuration

/-- The configuration that says nothing. -/
def empty : Configuration := ⟨[], none⟩

instance : Inhabited Configuration := ⟨empty⟩

/-- The settings of a configuration, unless there are none in it. -/
def givenSettings? (configuration : Configuration) : Option Settings :=
  configuration.settings.filter (!·.isEmpty)

end Configuration

/-! ## The mapping of data types to output streams -/

/-- The output streams of all configurations. -/
def streamMapping (configurations : List Configuration) : Dictionary String :=
  .ofList (configurations.flatMap (·.outputStreams))

/-- What is noted when the mapping is made: every configuration without output streams. -/
def streamNotes (configurations : List Configuration) : List Entry :=
  (configurations.filter (·.outputStreams.isEmpty)).map fun _ =>
    .warn "received extension configuration without output streams"

theorem streamMapping_append (first second : List Configuration) :
    streamMapping (first ++ second) =
      (streamMapping first).insertAll (second.flatMap (·.outputStreams)) := by
  simp [streamMapping, Dictionary.ofList, Dictionary.insertAll_append]

/-! ## The settings in force -/

/-- The settings of the last configuration that has any. -/
def latestSettings (configurations : List Configuration) : Option Settings :=
  configurations.reverse.findSome? (·.givenSettings?)

theorem latestSettings_append (first second : List Configuration) :
    latestSettings (first ++ second) = (latestSettings second).or (latestSettings first) := by
  simp [latestSettings, List.findSome?_append]

end PerfRelay
