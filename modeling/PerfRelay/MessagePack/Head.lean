import PerfRelay.Reading

/-!
# The heads of MessagePack values

Every MessagePack value begins with a head: a marker byte, and for some markers a number after it.
The head tells what kind of value comes and how many bytes or values belong to it.

Main results:

- Theorem `takeBytes_length`: what was taken and what is left make up the whole.
- Theorem `readHead_length`: a head takes at least its marker.
-/

namespace PerfRelay.MessagePack

/-- Why a reader stopped. -/
inductive Stop where
  /-- The bytes ended inside the value, and at least so many of it are missing. -/
  | endOfInput (missing : Nat)
  /-- The one marker that no value begins with. -/
  | reserved
  /-- A value of another kind than the wanted one. -/
  | mismatch
  /-- A string whose bytes are not UTF-8. -/
  | notText
  /-- An array of another length than the wanted one. -/
  | wrongLength
  /-- Too many values inside one another. -/
  | tooDeep
deriving DecidableEq, Repr

/-- The head of a value. -/
inductive Head where
  /-- A nil, a boolean, a number with a sign or a floating point number; it is complete. -/
  | scalar
  /-- A number without a sign; it is complete. -/
  | unsigned (n : Nat)
  /-- A string of so many bytes. -/
  | text (length : Nat)
  /-- A row of so many bytes. -/
  | binary (length : Nat)
  /-- An array of so many values. -/
  | array (count : Nat)
  /-- A map of so many keys with their values. -/
  | map (count : Nat)
  /-- An application value: its type, which is one byte, and so many bytes. -/
  | extension (length : Nat)
deriving DecidableEq, Repr

/-! ## Bytes and numbers -/

/-- What is left after so many bytes. -/
def dropBytes : Nat → List UInt8 → Reading Stop Unit
  | 0, s => .ok ((), s)
  | n + 1, [] => .error (.endOfInput (n + 1))
  | n + 1, _ :: s => dropBytes n s

/-- Takes so many bytes. -/
def takeBytes (n : Nat) (s : List UInt8) : Reading Stop (List UInt8) :=
  (dropBytes n s).map fun (_, rest) => (s.take n, rest)

/-- The number with the given digits to base 256, the highest one first. -/
def bigEndian (bytes : List UInt8) : Nat :=
  bytes.foldl (fun n b => 256 * n + b.toNat) 0

theorem dropBytes_length {n : Nat} {s rest : List UInt8} {u : Unit}
    (h : dropBytes n s = .ok (u, rest)) : s.length = n + rest.length := by
  induction n generalizing s with
  | zero => cases h; simp
  | succ n ih =>
    cases s with
    | nil => cases h
    | cons b s =>
      have := ih h
      simp only [List.length_cons]
      omega

/-- What was taken and what is left make up the whole. -/
theorem takeBytes_length {n : Nat} {s bytes rest : List UInt8}
    (h : takeBytes n s = .ok (bytes, rest)) : s.length = n + rest.length := by
  unfold takeBytes at h
  cases hdrop : dropBytes n s with
  | error => rw [hdrop] at h; cases h
  | ok => rw [hdrop] at h; cases h; exact dropBytes_length hdrop

/-! ## Heads -/

/-- What stands in a head. -/
inductive Form where
  /-- The marker is the whole head. -/
  | plain (head : Head)
  /-- A number of so many bytes follows the marker. -/
  | sized (width : Nat) (head : Nat → Head)

/-- The form of the heads with a given marker; one marker is reserved. -/
def form? (marker : UInt8) : Option Form :=
  let n := marker.toNat
  if n < 0x80 then some (.plain (.unsigned n))
  else if n < 0x90 then some (.plain (.map (n - 0x80)))
  else if n < 0xa0 then some (.plain (.array (n - 0x90)))
  else if n < 0xc0 then some (.plain (.text (n - 0xa0)))
  else if 0xe0 ≤ n then some (.plain .scalar)
  else
    match n with
    | 0xc1 => none
    | 0xc4 => some (.sized 1 .binary)
    | 0xc5 => some (.sized 2 .binary)
    | 0xc6 => some (.sized 4 .binary)
    | 0xc7 => some (.sized 1 .extension)
    | 0xc8 => some (.sized 2 .extension)
    | 0xc9 => some (.sized 4 .extension)
    | 0xca => some (.sized 4 fun _ => .scalar)
    | 0xcb => some (.sized 8 fun _ => .scalar)
    | 0xcc => some (.sized 1 .unsigned)
    | 0xcd => some (.sized 2 .unsigned)
    | 0xce => some (.sized 4 .unsigned)
    | 0xcf => some (.sized 8 .unsigned)
    | 0xd0 => some (.sized 1 fun _ => .scalar)
    | 0xd1 => some (.sized 2 fun _ => .scalar)
    | 0xd2 => some (.sized 4 fun _ => .scalar)
    | 0xd3 => some (.sized 8 fun _ => .scalar)
    | 0xd4 => some (.plain (.extension 1))
    | 0xd5 => some (.plain (.extension 2))
    | 0xd6 => some (.plain (.extension 4))
    | 0xd7 => some (.plain (.extension 8))
    | 0xd8 => some (.plain (.extension 16))
    | 0xd9 => some (.sized 1 .text)
    | 0xda => some (.sized 2 .text)
    | 0xdb => some (.sized 4 .text)
    | 0xdc => some (.sized 2 .array)
    | 0xdd => some (.sized 4 .array)
    | 0xde => some (.sized 2 .map)
    | 0xdf => some (.sized 4 .map)
    | _ => some (.plain .scalar)

/-- Reads the head of a value. -/
@[inline]
def readHead : List UInt8 → Reading Stop Head
  | [] => .error (.endOfInput 1)
  | marker :: rest =>
    match form? marker with
    | none => .error .reserved
    | some (.plain head) => .ok (head, rest)
    | some (.sized width head) =>
      (takeBytes width rest).map fun (bytes, rest) => (head (bigEndian bytes), rest)

theorem readHead_length {s rest : List UInt8} {head : Head} (h : readHead s = .ok (head, rest)) :
    rest.length < s.length := by
  unfold readHead at h
  split at h
  · cases h
  · rename_i marker tail
    split at h
    · cases h
    · cases h; simp
    · rename_i width _ _
      cases htake : takeBytes width tail with
      | error => rw [htake] at h; cases h
      | ok =>
        rw [htake] at h
        cases h
        have := takeBytes_length htake
        simp only [List.length_cons]
        omega

end PerfRelay.MessagePack
