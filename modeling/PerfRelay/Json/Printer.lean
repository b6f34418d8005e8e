import PerfRelay.Decimal.Layout
import PerfRelay.Json.Value

/-!
# Printing JSON

The compact text of a value: no white space, members in the order of their names, and in strings
only those characters escaped that have to be.

Main results:

- Theorem `render_string`: the text of a string is its escaped characters between quotes.
-/

namespace PerfRelay.Json

/-- Numbers are written out while the leading digit stands between the fifth place after the point
and the sixteenth before it, and always show that they are not whole. -/
def numberLayout : DecimalLayout := ⟨.toEven, some (-5), some 15, true⟩

/-- How one character stands in a string. -/
def escape (c : Char) : List Char :=
  if c = '"' then ['\\', '"']
  else if c = '\\' then ['\\', '\\']
  else if c.toNat < 0x20 then
    match c.toNat with
    | 0x08 => ['\\', 'b']
    | 0x09 => ['\\', 't']
    | 0x0a => ['\\', 'n']
    | 0x0c => ['\\', 'f']
    | 0x0d => ['\\', 'r']
    | n => ['\\', 'u', '0', '0', Nat.digitChar (n / 16), Nat.digitChar (n % 16)]
  else [c]

/-- The text of a string, between quotes. -/
def renderString (s : String) : List Char :=
  '"' :: s.toList.flatMap escape ++ ['"']

/-- The text of a whole number. -/
def renderInt (n : Int) : List Char :=
  (if n < 0 then ['-'] else []) ++ Nat.toDigits 10 n.natAbs

mutual

/-- The text of a value. -/
def render : Value → List Char
  | .null => ['n', 'u', 'l', 'l']
  | .bool true => ['t', 'r', 'u', 'e']
  | .bool false => ['f', 'a', 'l', 's', 'e']
  | .int n => renderInt n
  | .float x => numberLayout.render x
  | .string s => renderString s
  | .array items => '[' :: renderItems items ++ [']']
  | .object members => '\x7b' :: renderMembers members ++ ['\x7d']

/-- The texts of the items of an array, commas between them. -/
def renderItems : List Value → List Char
  | [] => []
  | [item] => render item
  | item :: items => render item ++ ',' :: renderItems items

/-- The texts of the members of an object, commas between them. -/
def renderMembers : List (String × Value) → List Char
  | [] => []
  | [(name, value)] => renderString name ++ ':' :: render value
  | (name, value) :: members =>
    renderString name ++ ':' :: render value ++ ',' :: renderMembers members

end

theorem render_string (s : String) : render (.string s) = renderString s := by
  simp [render]

/-- The text of a value. -/
def Value.text (v : Value) : String :=
  String.ofList (render v)

end PerfRelay.Json
