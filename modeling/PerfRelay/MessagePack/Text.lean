import PerfRelay.MessagePack.Head
import PerfRelay.Text.Utf8

/-!
# MessagePack strings

Reading and writing of strings.  A string is written with the shortest head that has room for its
length.

Main results:

- Theorem `readText_length`: a string that was read took its head and its bytes.
-/

namespace PerfRelay.MessagePack

/-- The last `width` digits of a number to base 256, the highest one first. -/
def bigEndianDigits : Nat → Nat → List UInt8
  | 0, _ => []
  | width + 1, n => bigEndianDigits width (n / 256) ++ [n.toUInt8]

/-- The head of a string of so many bytes. -/
def textHead (length : Nat) : List UInt8 :=
  if length ≤ 31 then [(0xa0 + length).toUInt8]
  else if length ≤ 0xff then 0xd9 :: bigEndianDigits 1 length
  else if length ≤ 0xffff then 0xda :: bigEndianDigits 2 length
  else 0xdb :: bigEndianDigits 4 length

/-- The string with the given bytes. -/
def framed (payload : List UInt8) : List UInt8 :=
  textHead payload.length ++ payload

/-- The string with the given text. -/
def renderText (text : String) : List UInt8 :=
  framed (Utf8.encode text)

/-- The text of so many bytes; `otherwise` tells what it means that they are not UTF-8. -/
def readTextBody (otherwise : Stop) (length : Nat) (s : List UInt8) : Reading Stop String :=
  match takeBytes length s with
  | .error stop => .error stop
  | .ok (bytes, rest) =>
    match Utf8.decode? bytes with
    | some text => .ok (text, rest)
    | none => .error otherwise

/-- The text after a head: a string, or a row of bytes. -/
def readTextAfter : Head → List UInt8 → Reading Stop String
  | .text length, s => readTextBody .notText length s
  | .binary length, s => readTextBody .mismatch length s
  | _, _ => .error .mismatch

/-- Reads a text, which may be a string or a row of bytes. -/
def readText (s : List UInt8) : Reading Stop String :=
  match readHead s with
  | .error stop => .error stop
  | .ok (head, rest) => readTextAfter head rest

theorem readTextBody_length {otherwise : Stop} {length : Nat} {s rest : List UInt8} {text : String}
    (h : readTextBody otherwise length s = .ok (text, rest)) : s.length = length + rest.length := by
  unfold readTextBody at h
  split at h
  · cases h
  · rename_i htake
    split at h
    · cases h; exact takeBytes_length htake
    · cases h

theorem readText_length {s rest : List UInt8} {text : String} (h : readText s = .ok (text, rest)) :
    rest.length < s.length := by
  unfold readText at h
  split at h
  · cases h
  · rename_i head tail hhead
    have := readHead_length hhead
    cases head with
    | text =>
      have := readTextBody_length h
      omega
    | binary =>
      have := readTextBody_length h
      omega
    | _ => cases h

end PerfRelay.MessagePack
