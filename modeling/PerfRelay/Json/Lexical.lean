import PerfRelay.Reading
import PerfRelay.Text.Utf8

/-!
# The words of JSON

Readers for what JSON texts are made of: white space, strings, numbers and the three literals.  A
reader takes the bytes at hand and gives what it read with the bytes after it, or says why it
stopped. Running out of bytes is a reason of its own, because more of them may still arrive.

Strings and numbers are read in two ways.  A kept one is decoded, so its escapes must form
characters and a number must have a magnitude; a skipped one is only passed over.

Main results:

- Theorems `readString_length`, `skipString_length` and `readLiteral_length`: a reader that succeeds
  has moved on.
-/

namespace PerfRelay.Json

/-- Why a reader stopped. -/
inductive Stop where
  /-- The bytes ended inside the value. -/
  | endOfInput
  /-- The bytes at hand cannot be continued to a JSON text. -/
  | malformed
  /-- A JSON text, but not of the wanted kind. -/
  | mismatch
deriving DecidableEq, Repr

/-! ## Bytes with a meaning -/

/-- A byte given as a character. -/
abbrev byte (c : Char) : UInt8 := c.toNat.toUInt8

/-- White space between the words of a JSON text. -/
def isSpace (b : UInt8) : Bool :=
  b == 0x20 || b == 0x09 || b == 0x0a || b == 0x0d

/-- Passes over white space. -/
def skipSpace (s : List UInt8) : List UInt8 :=
  s.dropWhile isSpace

theorem skipSpace_length (s : List UInt8) : (skipSpace s).length ≤ s.length :=
  (List.dropWhile_suffix isSpace).length_le

/-- Whether a byte is a decimal digit. -/
def isDigit (b : UInt8) : Bool :=
  0x30 ≤ b && b ≤ 0x39

/-- The value of a hexadecimal digit. -/
def hexDigit? (b : UInt8) : Option Nat :=
  if 0x30 ≤ b && b ≤ 0x39 then some (b.toNat - 0x30)
  else if 0x41 ≤ b && b ≤ 0x46 then some (b.toNat - 0x37)
  else if 0x61 ≤ b && b ≤ 0x66 then some (b.toNat - 0x57)
  else none

/-- The value of four hexadecimal digits. -/
def hexUnit? (a b c d : UInt8) : Option Nat := do
  let a ← hexDigit? a
  let b ← hexDigit? b
  let c ← hexDigit? c
  let d ← hexDigit? d
  return ((a * 16 + b) * 16 + c) * 16 + d

/-- The character that a one-letter escape stands for. -/
def shortEscape? (b : UInt8) : Option UInt8 :=
  if b = byte '"' then some 0x22
  else if b = byte '\\' then some 0x5c
  else if b = byte '/' then some 0x2f
  else if b = byte 'b' then some 0x08
  else if b = byte 'f' then some 0x0c
  else if b = byte 'n' then some 0x0a
  else if b = byte 'r' then some 0x0d
  else if b = byte 't' then some 0x09
  else none

/-! ## Strings -/

/-- Reads the four digits of a numeric escape. -/
def readUnit : List UInt8 → Reading Stop Nat
  | a :: b :: c :: d :: rest =>
    match hexUnit? a b c d with
    | some n => .ok (n, rest)
    | none => .error .malformed
  | _ => .error .endOfInput

/-- Reads the second half of a character beyond the first 65536 code points, given its first half.
-/
def readSecondHalf (high : Nat) : List UInt8 → Reading Stop Nat
  | [] => .error .endOfInput
  | a :: rest =>
    if a ≠ byte '\\' then .error .malformed
    else
      match rest with
      | [] => .error .endOfInput
      | b :: rest =>
        if b ≠ byte 'u' then .error .malformed
        else
          match readUnit rest with
          | .error stop => .error stop
          | .ok (low, rest) =>
            if 0xdc00 ≤ low ∧ low ≤ 0xdfff then
              .ok (0x10000 + (high - 0xd800) * 0x400 + (low - 0xdc00), rest)
            else .error .malformed

/-- Reads the code point of a numeric escape, its `\u` gone. -/
def readCodePoint (s : List UInt8) : Reading Stop Nat :=
  match readUnit s with
  | .error stop => .error stop
  | .ok (n, rest) =>
    if 0xdc00 ≤ n ∧ n ≤ 0xdfff then .error .malformed
    else if 0xd800 ≤ n ∧ n ≤ 0xdbff then readSecondHalf n rest
    else .ok (n, rest)

/-- Reads what an escape stands for, its backslash gone. -/
def readEscape : List UInt8 → Reading Stop (List UInt8)
  | [] => .error .endOfInput
  | b :: rest =>
    if b = byte 'u' then
      match readCodePoint rest with
      | .error stop => .error stop
      | .ok (n, rest) => .ok (Utf8.encodeCodePoint n, rest)
    else
      match shortEscape? b with
      | some c => .ok ([c], rest)
      | none => .error .malformed

theorem readUnit_length {s rest : List UInt8} {n : Nat} (h : readUnit s = .ok (n, rest)) :
    rest.length < s.length := by
  unfold readUnit at h
  split at h
  · split at h
    · cases h; simp; omega
    · cases h
  · cases h

theorem readSecondHalf_length {high n : Nat} {s rest : List UInt8}
    (h : readSecondHalf high s = .ok (n, rest)) : rest.length < s.length := by
  unfold readSecondHalf at h
  split at h
  · cases h
  · split at h
    · cases h
    · split at h
      · cases h
      · split at h
        · cases h
        · split at h
          · cases h
          · rename_i hunit
            split at h
            · simp only [Except.ok.injEq, Prod.mk.injEq] at h
              obtain ⟨-, rfl⟩ := h
              have := readUnit_length hunit
              simp only [List.length_cons]
              omega
            · cases h

theorem readCodePoint_length {s rest : List UInt8} {n : Nat}
    (h : readCodePoint s = .ok (n, rest)) : rest.length < s.length := by
  unfold readCodePoint at h
  split at h
  · cases h
  · rename_i hunit
    have hlt := readUnit_length hunit
    split at h
    · cases h
    · split at h
      · have := readSecondHalf_length h
        omega
      · cases h; exact hlt

theorem readEscape_length {s bytes rest : List UInt8}
    (h : readEscape s = .ok (bytes, rest)) : rest.length < s.length := by
  unfold readEscape at h
  split at h
  · cases h
  · split at h
    · split at h
      · cases h
      · rename_i hpoint
        cases h
        have := readCodePoint_length hpoint
        simp only [List.length_cons]
        omega
    · split at h
      · cases h; simp
      · cases h

/-- Ends a string at its closing quote; `seen` holds the decoded bytes, last first.  Only here is it
settled whether they form a text. -/
def closeString (seen rest : List UInt8) : Reading Stop String :=
  match Utf8.decode? seen.reverse with
  | some text => .ok (text, rest)
  | none => .error .malformed

theorem closeString_rest {seen s rest : List UInt8} {text : String}
    (h : closeString seen s = .ok (text, rest)) : rest = s := by
  unfold closeString at h
  split at h
  · cases h; rfl
  · cases h

/-- Reads the next character of a string, or ends the string; `seen` holds the decoded bytes, last
first. -/
@[inline]
def stringStep (seen : List UInt8) : List UInt8 → Reading Stop (Turn (List UInt8) String)
  | [] => .error .endOfInput
  | b :: rest =>
    if b = byte '"' then (closeString seen rest).map fun (text, rest) => (.finish text, rest)
    else if b = byte '\\' then
      (readEscape rest).map fun (bytes, rest) => (.again (bytes.reverse ++ seen), rest)
    else if b < 0x20 then .error .malformed
    else .ok (.again (b :: seen), rest)

theorem stringStep_length {seen s rest : List UInt8} {turn : Turn (List UInt8) String}
    (h : stringStep seen s = .ok (turn, rest)) : rest.length < s.length := by
  unfold stringStep at h
  split at h
  · cases h
  · rename_i b tail
    split at h
    · cases hclose : closeString seen tail with
      | error => rw [hclose] at h; cases h
      | ok =>
        rw [hclose] at h
        cases h
        simp [closeString_rest hclose]
    · split at h
      · cases hescape : readEscape tail with
        | error => rw [hescape] at h; cases h
        | ok =>
          rw [hescape] at h
          cases h
          have := readEscape_length hescape
          simp only [List.length_cons]
          omega
      · split at h
        · cases h
        · cases h; simp

/-- The characters of a string up to its closing quote. -/
@[inline]
def stringLoop : Loop Stop (List UInt8) String := ⟨stringStep, stringStep_length⟩

/-- Reads the rest of a string, its opening quote gone. -/
def readString (s : List UInt8) : Reading Stop String :=
  stringLoop.run [] s

theorem readString_length {s rest : List UInt8} {text : String}
    (h : readString s = .ok (text, rest)) : rest.length < s.length :=
  Loop.run_length_lt stringStep_length h

/-- Passes over an escape, its backslash gone.  Four hexadecimal digits are wanted after `\u`,
whatever they stand for. -/
def skipEscape : List UInt8 → Reading Stop Unit
  | [] => .error .endOfInput
  | b :: rest =>
    if b = byte 'u' then (readUnit rest).map fun (_, rest) => ((), rest)
    else if (shortEscape? b).isSome then .ok ((), rest)
    else .error .malformed

theorem skipEscape_length {s rest : List UInt8} {u : Unit} (h : skipEscape s = .ok (u, rest)) :
    rest.length < s.length := by
  unfold skipEscape at h
  split at h
  · cases h
  · rename_i b tail
    split at h
    · cases hunit : readUnit tail with
      | error => rw [hunit] at h; cases h
      | ok =>
        rw [hunit] at h
        cases h
        have := readUnit_length hunit
        simp only [List.length_cons]
        omega
    · split at h
      · cases h; simp
      · cases h

/-- Passes over the next character of a string, or ends the string. -/
@[inline]
def skipStringStep (_ : Unit) : List UInt8 → Reading Stop (Turn Unit Unit)
  | [] => .error .endOfInput
  | b :: rest =>
    if b = byte '"' then .ok (.finish (), rest)
    else if b = byte '\\' then (skipEscape rest).map fun (_, rest) => (.again (), rest)
    else if b < 0x20 then .error .malformed
    else .ok (.again (), rest)

theorem skipStringStep_length {u : Unit} {s rest : List UInt8} {turn : Turn Unit Unit}
    (h : skipStringStep u s = .ok (turn, rest)) : rest.length < s.length := by
  unfold skipStringStep at h
  split at h
  · cases h
  · rename_i b tail
    split at h
    · cases h; simp
    · split at h
      · cases hescape : skipEscape tail with
        | error => rw [hescape] at h; cases h
        | ok =>
          rw [hescape] at h
          cases h
          have := skipEscape_length hescape
          simp only [List.length_cons]
          omega
      · split at h
        · cases h
        · cases h; simp

/-- The characters of a string that is passed over. -/
@[inline]
def skipStringLoop : Loop Stop Unit Unit := ⟨skipStringStep, skipStringStep_length⟩

/-- Passes over the rest of a string, its opening quote gone. -/
def skipString (s : List UInt8) : Reading Stop Unit :=
  skipStringLoop.run () s

theorem skipString_length {s rest : List UInt8} {u : Unit} (h : skipString s = .ok (u, rest)) :
    rest.length < s.length :=
  Loop.run_length_lt (fun {state} _ _ _ hstep => skipStringStep_length (u := state) hstep) h

/-! ## Literals -/

/-- Reads the remaining letters of a literal. -/
def readLiteral : List UInt8 → List UInt8 → Reading Stop Unit
  | [], s => .ok ((), s)
  | _ :: _, [] => .error .endOfInput
  | letter :: letters, b :: rest =>
    if b = letter then readLiteral letters rest else .error .malformed

theorem readLiteral_length {letters s rest : List UInt8} {u : Unit}
    (h : readLiteral letters s = .ok (u, rest)) :
    rest.length ≤ s.length := by
  fun_induction readLiteral letters s with
  | case1 => cases h; exact Nat.le_refl _
  | case2 => cases h
  | case3 _ _ _ ih =>
    have := ih h
    simp only [List.length_cons]
    omega
  | case4 => cases h

end PerfRelay.Json
