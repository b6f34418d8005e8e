import PerfRelay.Json.Numeral

/-!
# Reading JSON values

A value is read in one pass from left to right, with the arrays and objects that are still open on a
stack.  A kept value is put together on the way, and at most 127 arrays and objects may be open at a
time, those around the value included.  A value that nobody asked for is passed over by the same
steps: its words have to be well formed, but texts need not be texts, numbers may be of any size,
and nothing limits its depth.

Main results:

- Theorems `readValue_length` and `skipValue_length`: a reader that succeeds has moved on.
-/

namespace PerfRelay.Json

/-! ## Values without parts -/

/-- Reads a value that is neither an array nor an object and begins with the given byte. -/
def readScalar (b : UInt8) (rest : List UInt8) : Reading Stop Value :=
  if b = byte 'n' then
    (readLiteral [byte 'u', byte 'l', byte 'l'] rest).map fun (_, rest) => (.null, rest)
  else if b = byte 't' then
    (readLiteral [byte 'r', byte 'u', byte 'e'] rest).map fun (_, rest) => (.bool true, rest)
  else if b = byte 'f' then
    (readLiteral [byte 'a', byte 'l', byte 's', byte 'e'] rest).map fun (_, rest) =>
      (.bool false, rest)
  else if b = byte '"' then (readString rest).map fun (text, rest) => (.string text, rest)
  else if b = byte '-' then readNumber true rest
  else if isDigit b then readNumber false (b :: rest)
  else .error .malformed

theorem readScalar_length {b : UInt8} {s rest : List UInt8} {v : Value}
    (h : readScalar b s = .ok (v, rest)) : rest.length ≤ s.length := by
  unfold readScalar at h
  iterate 3
    split at h
    · cases hword : readLiteral _ s with
      | error => rw [hword] at h; cases h
      | ok => rw [hword] at h; cases h; exact readLiteral_length hword
  split at h
  · cases hword : readString s with
    | error => rw [hword] at h; cases h
    | ok => rw [hword] at h; cases h; exact Nat.le_of_lt (readString_length hword)
  · split at h
    · exact Nat.le_of_lt (readNumber_length h)
    · split at h
      · exact Nat.le_of_lt_succ (readNumber_length h)
      · cases h

/-- Passes over a value that is neither an array nor an object and begins with the given byte. -/
def skipScalar (b : UInt8) (rest : List UInt8) : Reading Stop Unit :=
  if b = byte 'n' then readLiteral [byte 'u', byte 'l', byte 'l'] rest
  else if b = byte 't' then readLiteral [byte 'r', byte 'u', byte 'e'] rest
  else if b = byte 'f' then readLiteral [byte 'a', byte 'l', byte 's', byte 'e'] rest
  else if b = byte '"' then skipString rest
  else if b = byte '-' then skipNumber rest
  else if isDigit b then skipNumber (b :: rest)
  else .error .malformed

theorem skipScalar_length {b : UInt8} {s rest : List UInt8} {u : Unit}
    (h : skipScalar b s = .ok (u, rest)) : rest.length ≤ s.length := by
  unfold skipScalar at h
  iterate 3
    split at h
    · exact readLiteral_length h
  split at h
  · exact Nat.le_of_lt (skipString_length h)
  · split at h
    · exact Nat.le_of_lt (skipNumber_length h)
    · split at h
      · exact Nat.le_of_lt_succ (skipNumber_length h)
      · cases h

/-! ## Names and separators -/

/-- What comes next, white space passed over. -/
@[inline]
def next (s : List UInt8) : Reading Stop UInt8 :=
  match skipSpace s with
  | [] => .error .endOfInput
  | b :: rest => .ok (b, rest)

theorem next_length {b : UInt8} {s rest : List UInt8} (h : next s = .ok (b, rest)) :
    rest.length < s.length := by
  unfold next at h
  split at h
  · cases h
  · rename_i hspace
    cases h
    have := skipSpace_length s
    rw [hspace, List.length_cons] at this
    omega

/-- Passes over one wanted byte, and white space before it. -/
@[inline]
def expect (wanted : UInt8) (s : List UInt8) : Reading Stop Unit :=
  match next s with
  | .error stop => .error stop
  | .ok (b, rest) => if b = wanted then .ok ((), rest) else .error .malformed

theorem expect_length {wanted : UInt8} {s rest : List UInt8} {u : Unit}
    (h : expect wanted s = .ok (u, rest)) : rest.length < s.length := by
  unfold expect at h
  split at h
  · cases h
  · rename_i hnext
    split at h
    · cases h; exact next_length hnext
    · cases h

/-- Reads the name of a member. -/
def readName (s : List UInt8) : Reading Stop String :=
  match expect (byte '"') s with
  | .error stop => .error stop
  | .ok (_, rest) => readString rest

theorem readName_length {s rest : List UInt8} {name : String} (h : readName s = .ok (name, rest)) :
    rest.length < s.length := by
  unfold readName at h
  split at h
  · cases h
  · rename_i hquote
    have := expect_length hquote
    have := readString_length h
    omega

/-! ## Whole values -/

/-- What becomes of the parts of a value: those of a kept value are put together, those of a value
that is passed over are forgotten. -/
structure Treatment (α κ : Type) where
  /-- Reads a value without parts that begins with the given byte. -/
  scalar : UInt8 → List UInt8 → Reading Stop α
  /-- Reads the rest of a name, its opening quote gone. -/
  name : List UInt8 → Reading Stop κ
  /-- An array of the given items. -/
  array : List α → α
  /-- An object of the given members. -/
  object : List (κ × α) → α
  /-- How many arrays and objects may be open at a time, if that is limited. -/
  depthLimit : Option Nat
  scalar_length : ∀ {b : UInt8} {s rest : List UInt8} {v : α},
    scalar b s = .ok (v, rest) → rest.length ≤ s.length
  name_length : ∀ {s rest : List UInt8} {name' : κ},
    name s = .ok (name', rest) → rest.length < s.length

/-- An array or object that is still open: its items or members so far, last first, and in an object
the name whose value is being read. -/
inductive Frame (α κ : Type) where
  | array (items : List α)
  | object (members : List (κ × α)) (name : κ)

/-- Where a reader of values stands inside the open arrays and objects, the innermost one first. -/
inductive Position (α κ : Type) where
  /-- A value comes next. -/
  | before (stack : List (Frame α κ))
  /-- A value has just ended. -/
  | after (stack : List (Frame α κ)) (v : α)

namespace Treatment

variable {α κ : Type}

/-- Reads the name of a member and the colon after it. -/
def readKey (t : Treatment α κ) (s : List UInt8) : Reading Stop κ :=
  match expect (byte '"') s with
  | .error stop => .error stop
  | .ok (_, rest) =>
    match t.name rest with
    | .error stop => .error stop
    | .ok (name, rest) => (expect (byte ':') rest).map fun (_, rest) => (name, rest)

theorem readKey_length {t : Treatment α κ} {s rest : List UInt8} {name : κ}
    (h : t.readKey s = .ok (name, rest)) : rest.length < s.length := by
  unfold readKey at h
  split at h
  · cases h
  · rename_i hquote
    split at h
    · cases h
    · rename_i after hname
      cases hcolon : expect (byte ':') after with
      | error => rw [hcolon] at h; cases h
      | ok =>
        rw [hcolon] at h
        cases h
        have := expect_length hquote
        have := t.name_length hname
        have := expect_length hcolon
        omega

/-- Opens an array; the bracket is gone. -/
@[inline]
def openArray (t : Treatment α κ) (stack : List (Frame α κ)) (s : List UInt8) :
    Reading Stop (Turn (Position α κ) α) :=
  match expect (byte ']') s with
  | .ok (_, rest) => .ok (.again (.after stack (t.array [])), rest)
  | .error _ => .ok (.again (.before (.array [] :: stack)), s)

/-- Opens an object; the brace is gone. -/
@[inline]
def openObject (t : Treatment α κ) (stack : List (Frame α κ)) (s : List UInt8) :
    Reading Stop (Turn (Position α κ) α) :=
  match expect (byte '\x7d') s with
  | .ok (_, rest) => .ok (.again (.after stack (t.object [])), rest)
  | .error _ =>
    (t.readKey s).map fun (name, rest) => (.again (.before (.object [] name :: stack)), rest)

/-- Whether no further array or object may be opened inside those on the stack, around which
`enclosing` others are open. -/
def isFull (t : Treatment α κ) (enclosing : Nat) (stack : List (Frame α κ)) : Bool :=
  match t.depthLimit with
  | none => false
  | some limit => limit ≤ enclosing + stack.length

/-- Reads the next word of a value around which `enclosing` arrays and objects are open. -/
@[inline]
def step (t : Treatment α κ) (enclosing : Nat) :
    Position α κ → List UInt8 → Reading Stop (Turn (Position α κ) α)
  | .before stack, s =>
    match next s with
    | .error stop => .error stop
    | .ok (b, rest) =>
      if b = byte '[' then
        if t.isFull enclosing stack then .error .malformed else t.openArray stack rest
      else if b = byte '\x7b' then
        if t.isFull enclosing stack then .error .malformed else t.openObject stack rest
      else (t.scalar b rest).map fun (v, rest) => (.again (.after stack v), rest)
  | .after [] v, s => .ok (.finish v, s)
  | .after (.array items :: stack) v, s =>
    match next s with
    | .error stop => .error stop
    | .ok (b, rest) =>
      if b = byte ',' then .ok (.again (.before (.array (v :: items) :: stack)), rest)
      else if b = byte ']' then .ok (.again (.after stack (t.array (v :: items).reverse)), rest)
      else .error .malformed
  | .after (.object members name :: stack) v, s =>
    match next s with
    | .error stop => .error stop
    | .ok (b, rest) =>
      if b = byte ',' then
        (t.readKey rest).map fun (other, rest) =>
          (.again (.before (.object ((name, v) :: members) other :: stack)), rest)
      else if b = byte '\x7d' then
        .ok (.again (.after stack (t.object ((name, v) :: members).reverse)), rest)
      else .error .malformed

theorem openArray_length {t : Treatment α κ} {stack : List (Frame α κ)} {s rest : List UInt8}
    {turn : Turn (Position α κ) α} (h : t.openArray stack s = .ok (turn, rest)) :
    rest.length ≤ s.length := by
  unfold openArray at h
  split at h
  · rename_i hclose
    cases h
    exact Nat.le_of_lt (expect_length hclose)
  · cases h; exact Nat.le_refl _

theorem openObject_length {t : Treatment α κ} {stack : List (Frame α κ)} {s rest : List UInt8}
    {turn : Turn (Position α κ) α} (h : t.openObject stack s = .ok (turn, rest)) :
    rest.length ≤ s.length := by
  unfold openObject at h
  split at h
  · rename_i hclose
    cases h
    exact Nat.le_of_lt (expect_length hclose)
  · cases hkey : t.readKey s with
    | error => rw [hkey] at h; cases h
    | ok =>
      rw [hkey] at h
      cases h
      exact Nat.le_of_lt (readKey_length hkey)

theorem step_length {t : Treatment α κ} {enclosing : Nat} {position : Position α κ}
    {s rest : List UInt8} {turn : Turn (Position α κ) α}
    (h : t.step enclosing position s = .ok (turn, rest)) :
    rest.length < s.length ∨ rest = s ∧ ∃ v, turn = .finish v := by
  unfold step at h
  split at h
  · split at h
    · cases h
    · rename_i b tail hnext
      have hlt := next_length hnext
      split at h
      · split at h
        · cases h
        · have := openArray_length h
          exact .inl (by omega)
      · split at h
        · split at h
          · cases h
          · have := openObject_length h
            exact .inl (by omega)
        · cases hscalar : t.scalar b tail with
          | error => rw [hscalar] at h; cases h
          | ok =>
            rw [hscalar] at h
            cases h
            have := t.scalar_length hscalar
            exact .inl (by omega)
  · cases h; exact .inr ⟨rfl, _, rfl⟩
  · split at h
    · cases h
    · rename_i hnext
      have hlt := next_length hnext
      split at h
      · cases h; exact .inl hlt
      · split at h
        · cases h; exact .inl hlt
        · cases h
  · split at h
    · cases h
    · rename_i b tail hnext
      have hlt := next_length hnext
      split at h
      · cases hkey : t.readKey tail with
        | error => rw [hkey] at h; cases h
        | ok =>
          rw [hkey] at h
          cases h
          have := readKey_length hkey
          exact .inl (by omega)
      · split at h
        · cases h; exact .inl hlt
        · cases h

/-- Where a value is to come, no step ends the value. -/
theorem step_before {t : Treatment α κ} {enclosing : Nat} {stack : List (Frame α κ)}
    {s rest : List UInt8} {v : α} : t.step enclosing (.before stack) s ≠ .ok (.finish v, rest) := by
  intro h
  simp only [step] at h
  split at h
  · cases h
  · rename_i b tail _
    split at h
    · split at h
      · cases h
      · unfold openArray at h
        split at h <;> cases h
    · split at h
      · split at h
        · cases h
        · unfold openObject at h
          split at h
          · cases h
          · cases hkey : t.readKey tail with
            | error => rw [hkey] at h; cases h
            | ok => rw [hkey] at h; cases h
      · cases hscalar : t.scalar b tail with
        | error => rw [hscalar] at h; cases h
        | ok => rw [hscalar] at h; cases h

/-- The words of a value. -/
@[inline]
def loop (t : Treatment α κ) (enclosing : Nat) : Loop Stop (Position α κ) α where
  step := t.step enclosing
  moves h := (step_length h).resolve_right fun ⟨_, _, hturn⟩ => nomatch hturn

/-- Reads a value around which `enclosing` arrays and objects are open. -/
@[inline]
def read (t : Treatment α κ) (enclosing : Nat) (s : List UInt8) : Reading Stop α :=
  (t.loop enclosing).run (.before []) s

theorem read_length {t : Treatment α κ} {enclosing : Nat} {s rest : List UInt8} {v : α}
    (h : t.read enclosing s = .ok (v, rest)) : rest.length < s.length := by
  rw [read, Loop.run_eq] at h
  split at h
  · cases h
  · rename_i hstep
    exact (step_before hstep).elim
  · rename_i hstep
    have hlt := (t.loop enclosing).moves hstep
    have := Loop.run_length (fun hfinish =>
      (step_length hfinish).elim Nat.le_of_lt fun ⟨heq, _⟩ => heq ▸ Nat.le_refl _) h
    omega

/-- A value is kept: its names are texts, its last member of a name counts, and at most 127 arrays
and objects may be open. -/
def keep : Treatment Value String where
  scalar := readScalar
  name := readString
  array := .array
  object := .ofMembers
  depthLimit := some 127
  scalar_length := readScalar_length
  name_length := readString_length

/-- A value is passed over, however deep it is. -/
def pass : Treatment Unit Unit where
  scalar := skipScalar
  name := skipString
  array _ := ()
  object _ := ()
  depthLimit := none
  scalar_length := skipScalar_length
  name_length := skipString_length

end Treatment

/-- Reads a value around which `enclosing` arrays and objects are open. -/
def readValue (enclosing : Nat) (s : List UInt8) : Reading Stop Value :=
  Treatment.keep.read enclosing s

theorem readValue_length {enclosing : Nat} {s rest : List UInt8} {v : Value}
    (h : readValue enclosing s = .ok (v, rest)) : rest.length < s.length :=
  Treatment.read_length h

/-- Passes over a value. -/
def skipValue (s : List UInt8) : Reading Stop Unit :=
  Treatment.pass.read 0 s

theorem skipValue_length {s rest : List UInt8} {u : Unit} (h : skipValue s = .ok (u, rest)) :
    rest.length < s.length :=
  Treatment.read_length h

end PerfRelay.Json
