import PerfRelay.Json.Value
import PerfRelay.Text.AsciiCase
import PerfRelay.Text.LowerCase

/-!
# Data collection settings

Settings are JSON values under names.  Names are compared by their lower case, so it does not matter
how a document spells them; where one document has several spellings of a name, the spelling that
comes last in the order of the texts decides.

Main results:

- Theorem `get?_lowerCase`: a look-up depends on the lower case of the name alone.
-/

namespace PerfRelay

/-- Settings under the lower case of their names. -/
structure Settings where
  entries : Dictionary Json.Value

namespace Settings

/-- Settings without entries. -/
def empty : Settings := ⟨.empty⟩

instance : Inhabited Settings := ⟨empty⟩

/-- The settings in an object, its names taken in the order of the texts. -/
def ofDictionary (raw : Dictionary Json.Value) : Settings :=
  ⟨.ofList (raw.entries.map fun (name, value) => (lowerCase name, value))⟩

/-- The settings in an object with the given members. -/
def ofMembers (members : List (String × Json.Value)) : Settings :=
  ofDictionary (.ofList members)

/-- The setting with a name. -/
def get? (settings : Settings) (name : String) : Option Json.Value :=
  settings.entries.get? (lowerCase name)

/-- Whether there is no setting. -/
def isEmpty (settings : Settings) : Bool :=
  settings.entries.isEmpty

theorem get?_lowerCase {settings : Settings} {a b : String} (h : lowerCase a = lowerCase b) :
    settings.get? a = settings.get? b := by
  simp [get?, h]

/-- The name of the switch for the second version of container logs. -/
def containerLogSwitch : String := "enablecontainerlogv2"

/-- Whether the second version of container logs is switched on, by a boolean or by its name. -/
def containerLogsEnabled (settings : Settings) : Bool :=
  match settings.get? containerLogSwitch with
  | some (.bool enabled) => enabled
  | some (.string text) => eqIgnoringCase text "true"
  | _ => false

end Settings

end PerfRelay
