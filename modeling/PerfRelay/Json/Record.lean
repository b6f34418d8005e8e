import PerfRelay.Json.Document

/-!
# Records and lists in JSON

Documents with a fixed shape are read into a state: every field of a record knows how to bring what
it reads into the state.  When a reader stops, the state as it was by then is part of the reason, so
that what was noticed on the way is not lost.

A record is an object or an array.  In an object the fields may come in any order, names without a
field are passed over with their values, and a field that comes a second time stops the reader at
its name.  In an array the fields come in their order, and the last ones may be missing.

Main results:

- Theorems `readRecord_length` and `readList_length`: a reader that succeeds has moved on.
-/

namespace PerfRelay.Json

/-- A reader that brings what it reads into a state. -/
structure Fold (σ : Type) where
  run : σ → List UInt8 → Reading (Stop × σ) σ
  moves : ∀ {state next : σ} {s rest : List UInt8},
    run state s = .ok (next, rest) → rest.length < s.length

namespace Fold

variable {σ α : Type}

/-- Makes a reader of values one that enters the value into a state. -/
def ofReader (read : List UInt8 → Reading Stop α) (enter : α → σ → σ)
    (hread : ∀ {s rest : List UInt8} {a : α}, read s = .ok (a, rest) → rest.length < s.length) :
    Fold σ where
  run state s :=
    match read s with
    | .error stop => .error (stop, state)
    | .ok (a, rest) => .ok (enter a state, rest)
  moves h := by
    split at h
    · cases h
    · rename_i hvalue
      cases h
      exact hread hvalue

/-- Reads a document: one thing with nothing but white space after it. -/
def document (fold : Fold σ) (state : σ) (s : List UInt8) : Except (Stop × σ) σ :=
  match fold.run state s with
  | .error stop => .error stop
  | .ok (state, rest) => if isAtEnd rest then .ok state else .error (.malformed, state)

end Fold

/-- What comes next, white space passed over, for a reader with a state. -/
def nextOf {σ : Type} (state : σ) (s : List UInt8) : Reading (Stop × σ) UInt8 :=
  (next s).mapError (·, state)

theorem nextOf_length {σ : Type} {state : σ} {b : UInt8} {s rest : List UInt8}
    (h : nextOf state s = .ok (b, rest)) : rest.length < s.length := by
  unfold nextOf at h
  cases hnext : next s with
  | error => rw [hnext] at h; cases h
  | ok => rw [hnext] at h; cases h; exact next_length hnext

/-! ## Lists -/

/-- Reads the next item of a list, or ends the list; the flag tells that no item has come yet. -/
def itemStep {σ : Type} (item : Fold σ) :
    Bool × σ → List UInt8 → Reading (Stop × σ) (Turn (Bool × σ) σ)
  | (first, state), s =>
    match nextOf state s with
    | .error stop => .error stop
    | .ok (b, rest) =>
      if b = byte ']' then .ok (.finish state, rest)
      else if first then (item.run state s).map fun (state, rest) => (.again (false, state), rest)
      else if b = byte ',' then
        (item.run state rest).map fun (state, rest) => (.again (false, state), rest)
      else .error (.malformed, state)

theorem itemStep_length {σ : Type} {item : Fold σ} {state : Bool × σ} {s rest : List UInt8}
    {turn : Turn (Bool × σ) σ} (h : itemStep item state s = .ok (turn, rest)) :
    rest.length < s.length := by
  obtain ⟨first, state⟩ := state
  simp only [itemStep] at h
  split at h
  · cases h
  · rename_i b tail hnext
    have hlt := nextOf_length hnext
    split at h
    · cases h; exact hlt
    · split at h
      · cases hitem : item.run state s with
        | error => rw [hitem] at h; cases h
        | ok => rw [hitem] at h; cases h; exact item.moves hitem
      · split at h
        · cases hitem : item.run state tail with
          | error => rw [hitem] at h; cases h
          | ok =>
            rw [hitem] at h
            cases h
            have := item.moves hitem
            omega
        · cases h

/-- The items of a list. -/
def itemLoop {σ : Type} (item : Fold σ) : Loop (Stop × σ) (Bool × σ) σ :=
  ⟨itemStep item, itemStep_length⟩

/-- Reads an array whose items are all of one kind. -/
def readList {σ : Type} (item : Fold σ) (state : σ) (s : List UInt8) : Reading (Stop × σ) σ :=
  match nextOf state s with
  | .error stop => .error stop
  | .ok (b, rest) =>
    if b = byte '[' then (itemLoop item).run (true, state) rest else .error (refuse b rest, state)

theorem readList_length {σ : Type} {item : Fold σ} {state after : σ} {s rest : List UInt8}
    (h : readList item state s = .ok (after, rest)) : rest.length < s.length := by
  unfold readList at h
  split at h
  · cases h
  · rename_i hnext
    have hlt := nextOf_length hnext
    split at h
    · have := Loop.run_length_lt itemStep_length h
      omega
    · cases h

/-- A list of items of one kind. -/
def Fold.list {σ : Type} (item : Fold σ) : Fold σ := ⟨readList item, readList_length⟩

/-! ## Records -/

/-- A field of a record. -/
structure Field (σ : Type) where
  name : String
  value : Fold σ

/-- How far the reading of an object has come. -/
structure Progress (σ : Type) where
  state : σ
  /-- The fields that have come. -/
  seen : List String
  /-- Whether a member has come. -/
  started : Bool

/-- Reads the colon after the name of a member and the value after that. -/
def readMemberValue {σ : Type} (fields : List (Field σ)) (progress : Progress σ) (name : String)
    (s : List UInt8) : Reading (Stop × σ) (Progress σ) :=
  match fields.find? (·.name = name) with
  | none =>
    match expect (byte ':') s with
    | .error stop => .error (stop, progress.state)
    | .ok (_, rest) =>
      match skipValue rest with
      | .error stop => .error (stop, progress.state)
      | .ok (_, rest) => .ok ({ progress with started := true }, rest)
  | some field =>
    if name ∈ progress.seen then .error (.mismatch, progress.state)
    else
      match expect (byte ':') s with
      | .error stop => .error (stop, progress.state)
      | .ok (_, rest) =>
        match field.value.run progress.state rest with
        | .error stop => .error stop
        | .ok (state, rest) => .ok (⟨state, name :: progress.seen, true⟩, rest)

theorem readMemberValue_length {σ : Type} {fields : List (Field σ)} {progress after : Progress σ}
    {name : String} {s rest : List UInt8}
    (h : readMemberValue fields progress name s = .ok (after, rest)) : rest.length < s.length := by
  unfold readMemberValue at h
  split at h
  · split at h
    · cases h
    · rename_i hcolon
      have := expect_length hcolon
      split at h
      · cases h
      · rename_i hskip
        cases h
        have := skipValue_length hskip
        omega
  · split at h
    · cases h
    · split at h
      · cases h
      · rename_i hcolon
        have := expect_length hcolon
        split at h
        · cases h
        · rename_i hvalue
          cases h
          have := Fold.moves _ hvalue
          omega

/-- Reads a member of an object. -/
def readMember {σ : Type} (fields : List (Field σ)) (progress : Progress σ) (s : List UInt8) :
    Reading (Stop × σ) (Progress σ) :=
  match readName s with
  | .error stop => .error (stop, progress.state)
  | .ok (name, rest) => readMemberValue fields progress name rest

theorem readMember_length {σ : Type} {fields : List (Field σ)} {progress after : Progress σ}
    {s rest : List UInt8} (h : readMember fields progress s = .ok (after, rest)) :
    rest.length < s.length := by
  unfold readMember at h
  split at h
  · cases h
  · rename_i hname
    have := readName_length hname
    have := readMemberValue_length h
    omega

/-- Reads the next member of an object, or ends the object. -/
def memberStep {σ : Type} (fields : List (Field σ)) (progress : Progress σ) (s : List UInt8) :
    Reading (Stop × σ) (Turn (Progress σ) σ) :=
  match nextOf progress.state s with
  | .error stop => .error stop
  | .ok (b, rest) =>
    if b = byte '\x7d' then .ok (.finish progress.state, rest)
    else if progress.started then
      if b = byte ',' then
        (readMember fields progress rest).map fun (progress, rest) => (.again progress, rest)
      else .error (.malformed, progress.state)
    else (readMember fields progress s).map fun (progress, rest) => (.again progress, rest)

theorem memberStep_length {σ : Type} {fields : List (Field σ)} {progress : Progress σ}
    {s rest : List UInt8} {turn : Turn (Progress σ) σ}
    (h : memberStep fields progress s = .ok (turn, rest)) : rest.length < s.length := by
  unfold memberStep at h
  split at h
  · cases h
  · rename_i b tail hnext
    have hlt := nextOf_length hnext
    split at h
    · cases h; exact hlt
    · split at h
      · split at h
        · cases hmember : readMember fields progress tail with
          | error => rw [hmember] at h; cases h
          | ok =>
            rw [hmember] at h
            cases h
            have := readMember_length hmember
            omega
        · cases h
      · cases hmember : readMember fields progress s with
        | error => rw [hmember] at h; cases h
        | ok => rw [hmember] at h; cases h; exact readMember_length hmember

/-- The members of an object. -/
def memberLoop {σ : Type} (fields : List (Field σ)) : Loop (Stop × σ) (Progress σ) σ :=
  ⟨memberStep fields, memberStep_length⟩

/-- Reads the fields of a record that is written as an array; the flag tells that no field has come
yet. -/
def readFields {σ : Type} : Bool → List (Field σ) → σ → List UInt8 → Reading (Stop × σ) σ
  | _, [], state, s =>
    match nextOf state s with
    | .error stop => .error stop
    | .ok (b, rest) => if b = byte ']' then .ok (state, rest) else .error (.malformed, state)
  | first, field :: fields, state, s =>
    match nextOf state s with
    | .error stop => .error stop
    | .ok (b, rest) =>
      if b = byte ']' then .ok (state, rest)
      else if first then
        match field.value.run state s with
        | .error stop => .error stop
        | .ok (state, rest) => readFields false fields state rest
      else if b = byte ',' then
        match field.value.run state rest with
        | .error stop => .error stop
        | .ok (state, rest) => readFields false fields state rest
      else .error (.malformed, state)

theorem readFields_length {σ : Type} {first : Bool} {fields : List (Field σ)} {state after : σ}
    {s rest : List UInt8} (h : readFields first fields state s = .ok (after, rest)) :
    rest.length < s.length := by
  induction fields generalizing first state s with
  | nil =>
    simp only [readFields] at h
    split at h
    · cases h
    · rename_i hnext
      split at h
      · cases h; exact nextOf_length hnext
      · cases h
  | cons field fields ih =>
    simp only [readFields] at h
    split at h
    · cases h
    · rename_i hnext
      have hlt := nextOf_length hnext
      split at h
      · cases h; exact hlt
      · split at h
        · split at h
          · cases h
          · rename_i hvalue
            have := field.value.moves hvalue
            have := ih h
            omega
        · split at h
          · split at h
            · cases h
            · rename_i hvalue
              have := field.value.moves hvalue
              have := ih h
              omega
          · cases h

/-- Reads a record. -/
def readRecord {σ : Type} (fields : List (Field σ)) (state : σ) (s : List UInt8) :
    Reading (Stop × σ) σ :=
  match nextOf state s with
  | .error stop => .error stop
  | .ok (b, rest) =>
    if b = byte '\x7b' then (memberLoop fields).run ⟨state, [], false⟩ rest
    else if b = byte '[' then readFields true fields state rest
    else .error (refuse b rest, state)

theorem readRecord_length {σ : Type} {fields : List (Field σ)} {state after : σ}
    {s rest : List UInt8} (h : readRecord fields state s = .ok (after, rest)) :
    rest.length < s.length := by
  unfold readRecord at h
  split at h
  · cases h
  · rename_i hnext
    have hlt := nextOf_length hnext
    split at h
    · have := Loop.run_length_lt memberStep_length h
      omega
    · split at h
      · have := readFields_length h
        omega
      · cases h

/-- A record with the given fields. -/
def Fold.record {σ : Type} (fields : List (Field σ)) : Fold σ :=
  ⟨readRecord fields, readRecord_length⟩

end PerfRelay.Json
