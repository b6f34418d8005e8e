import PerfRelay.Json.Reader

/-!
# Values of a wanted kind and documents

Most readers want a value of one kind.  Something of another kind stops them: an array or object
right at its bracket, everything else only once it has been read, so that a fault inside it comes
first.  A document is one value with nothing but white space after it.

Main results:

- Theorems `readText_length`, `readObject_length` and `readNullable_length`: a reader that succeeds
  has moved on.
-/

namespace PerfRelay.Json

/-! ## Values of a wanted kind -/

/-- Why something that is not of the wanted kind stops the reader: an array or object at its first
byte, everything else after it was read. -/
def refuse (b : UInt8) (rest : List UInt8) : Stop :=
  if b = byte '[' ∨ b = byte '\x7b' then .mismatch
  else
    match readScalar b rest with
    | .error stop => stop
    | .ok _ => .mismatch

/-- Reads a string value. -/
def readText (s : List UInt8) : Reading Stop String :=
  match next s with
  | .error stop => .error stop
  | .ok (b, rest) => if b = byte '"' then readString rest else .error (refuse b rest)

theorem readText_length {s rest : List UInt8} {text : String} (h : readText s = .ok (text, rest)) :
    rest.length < s.length := by
  unfold readText at h
  split at h
  · cases h
  · rename_i hnext
    have := next_length hnext
    split at h
    · have := readString_length h
      omega
    · cases h

/-- Reads an object and gives its members in order. -/
def readObject (enclosing : Nat) (s : List UInt8) : Reading Stop (List (String × Value)) :=
  match next s with
  | .error stop => .error stop
  | .ok (b, rest) =>
    if b = byte '\x7b' then
      match readValue enclosing s with
      | .error stop => .error stop
      | .ok (.object members, rest) => .ok (members, rest)
      | .ok _ => .error .mismatch
    else .error (refuse b rest)

theorem readObject_length {enclosing : Nat} {s rest : List UInt8} {members : List (String × Value)}
    (h : readObject enclosing s = .ok (members, rest)) : rest.length < s.length := by
  unfold readObject at h
  split at h
  · cases h
  · split at h
    · split at h
      · cases h
      · rename_i hvalue
        cases h
        exact readValue_length hvalue
      · cases h
    · cases h

/-- Reads an array and gives its items. -/
def readArray (enclosing : Nat) (s : List UInt8) : Reading Stop (List Value) :=
  match next s with
  | .error stop => .error stop
  | .ok (b, rest) =>
    if b = byte '[' then
      match readValue enclosing s with
      | .error stop => .error stop
      | .ok (.array items, rest) => .ok (items, rest)
      | .ok _ => .error .mismatch
    else .error (refuse b rest)

/-- Reads a null, or what `read` reads. -/
def readNullable {α : Type} (read : List UInt8 → Reading Stop α) (s : List UInt8) :
    Reading Stop (Option α) :=
  match next s with
  | .error stop => .error stop
  | .ok (b, rest) =>
    if b = byte 'n' then
      (readLiteral [byte 'u', byte 'l', byte 'l'] rest).map fun (_, rest) => (none, rest)
    else (read s).map fun (a, rest) => (some a, rest)

theorem readNullable_length {α : Type} {read : List UInt8 → Reading Stop α}
    (hread : ∀ {s rest : List UInt8} {a : α}, read s = .ok (a, rest) → rest.length < s.length)
    {s rest : List UInt8} {a : Option α} (h : readNullable read s = .ok (a, rest)) :
    rest.length < s.length := by
  unfold readNullable at h
  split at h
  · cases h
  · rename_i b tail hnext
    split at h
    · cases hword : readLiteral [byte 'u', byte 'l', byte 'l'] tail with
      | error => rw [hword] at h; cases h
      | ok =>
        rw [hword] at h
        cases h
        have := next_length hnext
        have := readLiteral_length hword
        omega
    · cases hvalue : read s with
      | error => rw [hvalue] at h; cases h
      | ok => rw [hvalue] at h; cases h; exact hread hvalue

/-! ## Documents -/

/-- Whether nothing but white space is left. -/
def isAtEnd (s : List UInt8) : Bool :=
  (skipSpace s).isEmpty

/-- Reads a document: one thing with nothing but white space after it. -/
def readDocument {α : Type} (read : List UInt8 → Reading Stop α) (s : List UInt8) :
    Except Stop α :=
  match read s with
  | .error stop => .error stop
  | .ok (a, rest) => if isAtEnd rest then .ok a else .error .malformed

/-- The value of a JSON text. -/
def parse (s : List UInt8) : Except Stop Value :=
  readDocument (readValue 0) s

end PerfRelay.Json
