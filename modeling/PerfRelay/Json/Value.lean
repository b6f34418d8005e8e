import PerfRelay.Decimal.Binary64
import PerfRelay.Dictionary

/-!
# JSON values

The values that settings and records are made of.  Whole numbers in the range of 64-bit words are
kept exactly, every other number is a binary64 number.  An object holds its members in the order of
their names, each name once.
-/

namespace PerfRelay.Json

/-- A JSON value. -/
inductive Value where
  | null
  | bool (b : Bool)
  | int (n : Int)
  | float (x : Binary64)
  | string (s : String)
  | array (items : List Value)
  | object (members : List (String × Value))
deriving Inhabited

namespace Value

/-- The object of a dictionary. -/
def ofDictionary (d : Dictionary Value) : Value := .object d.entries

/-- The object of the given members; of two members with one name the later one stays. -/
def ofMembers (members : List (String × Value)) : Value := ofDictionary (.ofList members)

/-- The member of an object with the given name; other values have none. -/
def field? (name : String) : Value → Option Value
  | .object members => lookupEntry name members
  | _ => none

/-- The text of a string value. -/
def asString? : Value → Option String
  | .string s => some s
  | _ => none

end Value

end PerfRelay.Json
