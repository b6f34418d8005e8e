import PerfRelay.Configuration.Settings
import PerfRelay.Proofs.Dictionary

/-!
# What an object says under a name

The names of settings are compared by their lower case, so an object may spell one name in several
ways.  What it says under the name is what stands under the last of these spellings, and whatever
else the object holds makes no difference.

Main results:

- Theorem `Settings.get?_ofDictionary`: the last spelling of a name decides.
- Theorem `Settings.get?_eq_of_sameUnder`: what is under other names makes no difference.
-/

namespace PerfRelay

namespace Settings

/-- Two objects hold the same values under all spellings of a name. -/
def SameUnder (name : String) (a b : Dictionary Json.Value) : Prop :=
  ∀ spelling, lowerCase spelling = lowerCase name → a.get? spelling = b.get? spelling

/-- The members of an object whose names are spellings of a name. -/
def spellings (name : String) (raw : Dictionary Json.Value) : Dictionary Json.Value :=
  raw.filterKeys fun spelling => lowerCase spelling = lowerCase name

/-- The last spelling of a name decides. -/
theorem get?_ofDictionary (raw : Dictionary Json.Value) (name : String) :
    (ofDictionary raw).get? name = ((spellings name raw).entries.getLast?).map (·.2) := by
  rw [get?, ofDictionary, Dictionary.get?_ofList, List.filter_map, List.getLast?_map,
    Option.map_map]
  rfl

/-- What an object holds under other names makes no difference. -/
theorem get?_eq_of_sameUnder {name : String} {a b : Dictionary Json.Value}
    (h : SameUnder name a b) : (ofDictionary a).get? name = (ofDictionary b).get? name := by
  have hspellings : spellings name a = spellings name b := by
    apply Dictionary.ext_get?
    intro spelling
    rw [spellings, spellings, Dictionary.get?_filterKeys, Dictionary.get?_filterKeys]
    split
    · rename_i hspelling
      exact h spelling (of_decide_eq_true hspelling)
    · rfl
  rw [get?_ofDictionary, get?_ofDictionary, hspellings]

end Settings

end PerfRelay
