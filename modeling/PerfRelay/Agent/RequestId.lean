/-!
# Request ids

A request has an id that tells it apart from all others: 32 hexadecimal digits in five groups, of
which one tells the version and one begins with the bits of the variant.  The remaining 122 bits are
chosen at random by whoever makes the id.

Main results:

- Theorem `ofBits_zero`: the id of the bits that are all zero.
-/

namespace PerfRelay.RequestId

/-- A number in so many hexadecimal digits; higher digits are dropped. -/
def hex : Nat → Nat → List Char
  | 0, _ => []
  | width + 1, n => hex width (n / 16) ++ [Nat.digitChar (n % 16)]

/-- So many bits of a number, from a position on. -/
def slice (bits start width : Nat) : Nat := bits / Nat.pow 2 start % Nat.pow 2 width

/-- The id with the given random bits. -/
def ofBits (bits : Nat) : String :=
  let version := 0x4000 + slice bits 62 12
  let variant := 0x8000 + slice bits 48 14
  String.ofList (hex 8 (slice bits 90 32) ++ '-' :: hex 4 (slice bits 74 16) ++ '-' ::
    hex 4 version ++ '-' :: hex 4 variant ++ '-' :: hex 12 (slice bits 0 48))

/-- The lengths of the groups of digits. -/
def groups : List Nat := [8, 4, 4, 4, 12]

/-- Whether a character is a small hexadecimal digit. -/
def isDigit (c : Char) : Bool := c.isDigit || ('a' ≤ c && c ≤ 'f')

/-- Whether a text has the form of an id. -/
def isId (text : String) : Bool :=
  let parts := text.splitOn "-"
  parts.map String.length == groups && parts.all (·.toList.all isDigit) &&
    (parts[2]?.any (·.startsWith "4")) &&
    (parts[3]?.any fun part => part.toList.head?.any fun c => "89ab".toList.contains c)

theorem ofBits_zero : ofBits 0 = "00000000-0000-4000-8000-000000000000" := by decide +kernel

end PerfRelay.RequestId
