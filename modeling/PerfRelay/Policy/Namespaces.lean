import PerfRelay.Configuration.Settings
import PerfRelay.Journal
import PerfRelay.Json.Printer

/-!
# The namespaces setting

The namespaces to filter by are the strings in an array, in lower case and each once.  Whatever else
stands in the array is noted and left out; a setting that is no array, or an empty one, lists no
namespaces.

Main results:

- Theorem `ofSettings_of_entries`: the namespaces of an array.
-/

namespace PerfRelay.Namespaces

/-- The name of the setting. -/
def settingName : String := "namespaces"

/-- The entries of a setting that is an array with entries. -/
def entries? : Json.Value → Option (List Json.Value)
  | .array (entry :: entries) => some (entry :: entries)
  | _ => none

/-- The namespaces among the entries of an array. -/
def ofEntries (entries : List Json.Value) : NameSet :=
  .ofList (entries.filterMap fun entry => entry.asString?.map lowerCase)

/-- The namespaces that the settings list. -/
def ofSettings (settings : Settings) : NameSet :=
  match (settings.get? settingName).bind entries? with
  | none => .empty
  | some entries => ofEntries entries

theorem ofSettings_of_entries {settings : Settings} {value : Json.Value} {entries : List Json.Value}
    (hvalue : settings.get? settingName = some value) (hentries : entries? value = some entries) :
    ofSettings settings = ofEntries entries := by
  simp [ofSettings, hvalue, hentries]

/-- What is noted about an entry that is no string. -/
def entryNote? : Json.Value → Option Entry
  | .string _ => none
  | entry => some (.warn s!"skipping invalid namespace {entry.text}")

/-- What is noted about the namespaces setting. -/
def notes (settings : Settings) : List Entry :=
  match settings.get? settingName with
  | none => []
  | some value =>
    match entries? value with
    | none =>
      [.warn (s!"data collection namespaces {value.text} are not valid, " ++
        "using no namespace filter")]
    | some entries => entries.filterMap entryNote?

end PerfRelay.Namespaces
