import PerfRelay.Proofs.Json.Parts

/-!
# Refusing arrays and objects, part by part

Where the depth of values is limited there may be no room for an array or an object, and a word may
be of no use.  Then the reader stops, whatever is open around it: it takes the parts in front, and
goes no further than the first part that it refuses.

Main results:

- Theorems `refuses_openArray` and `refuses_openObject`: brackets and braces without room.
- Theorems `refuses_array` and `refuses_object`: an array or object with a part that is refused.
-/

namespace PerfRelay.Json

/-- Between some parts and the next one there is a comma. -/
theorem joined_append {front : List (List UInt8)} (hsome : front ≠ []) (part : List UInt8)
    (back : List (List UInt8)) (rest : List UInt8) :
    joined (front ++ part :: back) ++ rest =
      joined front ++ byte ',' :: (part ++ (afterCommas back ++ rest)) := by
  cases front with
  | nil => exact absurd rfl hsome
  | cons first more =>
    have hmore : afterCommas (more ++ part :: back) =
        afterCommas more ++ afterCommas (part :: back) := List.flatMap_append
    rw [List.cons_append, joined, joined, hmore, List.append_assoc, List.append_assoc,
      List.append_assoc, afterCommas_cons]

namespace Treatment

variable {α κ : Type} {t : Treatment α κ} {enclosing room : Nat} {stack : List (Frame α κ)}
  {v : α} {key : κ} {gap s rest : List UInt8}

/-- A value is refused at some bytes, whatever is open around it, if there is room for just so many
arrays and objects inside one another. -/
structure Refuses (t : Treatment α κ) (room : Nat) (s : List UInt8) : Prop where
  begins : ∀ rest, Begins (s ++ rest)
  stops : ∀ enclosing stack rest, t.depthLimit = some (enclosing + stack.length + room) →
    Follows rest → t.readFrom enclosing (.before stack) (s ++ rest) = .error .malformed

/-- The name of a member is refused. -/
structure RefusesKey (t : Treatment α κ) (s : List UInt8) : Prop where
  /-- The bytes do not begin with the end of an object. -/
  begins : ∀ rest, expect (byte '\x7d') (s ++ rest) = .error .malformed
  stops : ∀ rest, t.readKey (s ++ byte ':' :: rest) = .error .malformed

/-- A member is refused at its name or at its value. -/
inductive RefusesMember (t : Treatment α κ) (room : Nat) : List UInt8 → Prop where
  | key {name value : List UInt8} (hname : t.RefusesKey name) :
      RefusesMember t room (Json.member (name, value))
  | value {key : κ} {name value : List UInt8} (hname : t.TakesKey key name)
      (hvalue : t.Refuses room value) : RefusesMember t room (Json.member (name, value))

theorem readFrom_of_error {position : Position α κ} {stop : Stop}
    (h : t.step enclosing position s = .error stop) :
    t.readFrom enclosing position s = .error stop :=
  Loop.run_of_error h

/-- Where there is room for so many arrays and objects, fewer are allowed. -/
theorem allows_of_limit {depth : Nat} (h : t.depthLimit = some room) (hle : depth ≤ room) :
    t.Allows depth := by
  intro limit hlimit
  rw [h] at hlimit
  cases hlimit
  exact hle

/-! ## Words and names -/

theorem refuses_word {b : UInt8} {before tail after : List UInt8} (hbefore : Blank before)
    (hb : BeginsWord b)
    (hscalar : ∀ rest, Follows rest → t.scalar b (tail ++ rest) = .error .malformed)
    (hafter : Blank after) : t.Refuses room (before ++ (b :: tail ++ after)) := by
  constructor
  · exact begins_append hbefore hb.notSpace hb.notArrayEnd
  · intro enclosing stack rest _ hrest
    rw [List.append_assoc, List.append_assoc]
    apply readFrom_of_error
    rw [List.cons_append, step, next_of_blank_append hbefore hb.notSpace]
    simp only [if_neg hb.notArray, if_neg hb.notObject, hscalar _ (hrest.after_blank hafter),
      Except.map]

/-- A name between quotes, as the reader of names refuses it. -/
theorem refusesKey_quoted {before after : List UInt8} (hbefore : Blank before)
    (hname : ∀ rest, t.name (s ++ byte '"' :: rest) = .error .malformed) :
    t.RefusesKey (before ++ byte '"' :: (s ++ byte '"' :: after)) := by
  constructor
  · intro rest
    rw [List.append_assoc]
    exact expect_of_next_ne (next_of_blank_append hbefore rfl _) (by decide)
  · intro rest
    have hopen : expect (byte '"') (before ++ byte '"' :: (s ++ byte '"' ::
        (after ++ byte ':' :: rest))) = .ok ((), s ++ byte '"' :: (after ++ byte ':' :: rest)) :=
      expect_of_next (next_of_blank_append hbefore rfl _)
    simp only [List.append_assoc, List.cons_append, readKey, hopen, hname]

/-! ## No room -/

theorem isFull_of_limit (h : t.depthLimit = some (enclosing + stack.length)) :
    t.isFull enclosing stack = true := by
  simp only [isFull, h, Nat.le_refl, decide_true]

/-- Where there is no room, an array is refused at its bracket. -/
theorem refuses_openArray {before : List UInt8} (hbefore : Blank before) (s : List UInt8) :
    t.Refuses 0 (before ++ byte '[' :: s) := by
  constructor
  · exact begins_append hbefore rfl (by decide)
  · intro enclosing stack rest hlimit _
    rw [List.append_assoc, List.cons_append]
    apply readFrom_of_error
    rw [step, next_of_blank_append hbefore rfl]
    simp only [if_true, isFull_of_limit hlimit]

/-- Where there is no room, an object is refused at its brace. -/
theorem refuses_openObject {before : List UInt8} (hbefore : Blank before) (s : List UInt8) :
    t.Refuses 0 (before ++ byte '\x7b' :: s) := by
  have hother : byte '\x7b' ≠ byte '[' := by decide
  constructor
  · exact begins_append hbefore rfl (by decide)
  · intro enclosing stack rest hlimit _
    rw [List.append_assoc, List.cons_append]
    apply readFrom_of_error
    rw [step, next_of_blank_append hbefore rfl]
    simp only [if_neg hother, if_true, isFull_of_limit hlimit]

/-! ## Parts that are refused -/

/-- Inside one more array or object there is room for one less. -/
theorem limit_inside (h : t.depthLimit = some (enclosing + stack.length + (room + 1))) :
    t.depthLimit = some (enclosing + (stack.length + 1) + room) := by
  rw [h]
  congr 1
  omega

/-- An array is refused at its first item that is. -/
theorem refuses_array {front : List α} {frontTexts backTexts : List (List UInt8)}
    {bad before after : List UInt8} (hbefore : Blank before)
    (hfront : List.Forall₂ (t.Takes room) front frontTexts) (hbad : t.Refuses room bad) :
    t.Refuses (room + 1)
      (before ++ byte '[' :: (joined (frontTexts ++ bad :: backTexts) ++ byte ']' :: after)) := by
  constructor
  · exact begins_append hbefore rfl (by decide)
  · intro enclosing stack rest hlimit _
    have hend : Follows (afterCommas backTexts ++ byte ']' :: (after ++ rest)) :=
      (follows_cons (.inr (.inl rfl)) _).after_parts backTexts
    simp only [List.append_assoc, List.cons_append]
    by_cases hsome : frontTexts = []
    · subst hsome
      cases hfront
      obtain ⟨b, tail, hnext, hb⟩ :=
        hbad.begins (afterCommas backTexts ++ byte ']' :: (after ++ rest))
      rw [List.nil_append, joined, List.append_assoc,
        readFrom_openArray (allows_of_limit hlimit (by omega)) hbefore hnext hb]
      exact hbad.stops enclosing (.array [] :: stack) _ (limit_inside hlimit) hend
    · have hmiddle : Follows (byte ',' :: (bad ++ (afterCommas backTexts ++
          byte ']' :: (after ++ rest)))) := follows_cons (.inl rfl) _
      obtain ⟨gap, done, v, hgap, -, hread⟩ :=
        readFrom_someItems hfront hsome (allows_of_limit hlimit (Nat.le_refl _)) hbefore hmiddle
      rw [joined_append hsome, hread, readFrom_nextItem hgap]
      exact hbad.stops enclosing (.array (v :: done) :: stack) _ (limit_inside hlimit) hend

/-- An object is refused at its first member that is, whatever comes after that. -/
theorem readFrom_refusedObject {front : List (κ × α)} {frontTexts backTexts : List (List UInt8)}
    {bad : List UInt8} (hlimit : t.depthLimit = some (enclosing + stack.length + (room + 1)))
    (hgap : Blank gap) (hfront : List.Forall₂ (t.TakesMember room) front frontTexts)
    (hbad : t.RefusesMember room bad) (rest : List UInt8) :
    t.readFrom enclosing (.before stack)
        (gap ++ byte '\x7b' :: (joined (frontTexts ++ bad :: backTexts) ++ byte '\x7d' :: rest)) =
      .error .malformed := by
  have hother : byte '\x7b' ≠ byte '[' := by decide
  have hend : Follows (afterCommas backTexts ++ byte '\x7d' :: rest) :=
    (follows_cons (.inr (.inr rfl)) _).after_parts backTexts
  by_cases hsome : frontTexts = []
  · subst hsome
    cases hfront
    have hopen : t.Allows (enclosing + stack.length + 1) := allows_of_limit hlimit (by omega)
    cases hbad with
    | @key name value hname =>
      rw [List.nil_append, joined, Json.member, List.append_assoc, List.append_assoc]
      apply readFrom_of_error
      rw [step, next_of_blank_append hgap rfl]
      simp only [if_neg hother, if_true, isFull_of_allows hopen, Bool.false_eq_true, if_false,
        openObject, List.cons_append, hname.begins, hname.stops, Except.map]
    | @value key name value hname hvalue =>
      rw [List.nil_append, joined, Json.member, List.append_assoc, List.append_assoc,
        List.cons_append, readFrom_openObject hopen hgap hname]
      exact hvalue.stops enclosing (.object [] key :: stack) _ (limit_inside hlimit) hend
  · have hmiddle : Follows (byte ',' :: (bad ++ (afterCommas backTexts ++ byte '\x7d' :: rest))) :=
      follows_cons (.inl rfl) _
    obtain ⟨gap', done, key, v, hgap', -, hread⟩ :=
      readFrom_someMembers hfront hsome (allows_of_limit hlimit (Nat.le_refl _)) hgap hmiddle
    rw [joined_append hsome, hread]
    cases hbad with
    | @key name value hname =>
      apply readFrom_of_error
      rw [step, next_of_blank_append hgap' rfl]
      simp only [if_true, Json.member, List.append_assoc, List.cons_append, hname.stops, Except.map]
    | @value key' name value hname hvalue =>
      rw [Json.member, List.append_assoc, List.cons_append, readFrom_nextMember hgap' hname]
      exact hvalue.stops enclosing (.object ((key, v) :: done) key' :: stack) _
        (limit_inside hlimit) hend

/-- An object is refused if a member of it is. -/
theorem refuses_object {front : List (κ × α)} {frontTexts backTexts : List (List UInt8)}
    {bad before after : List UInt8} (hbefore : Blank before)
    (hfront : List.Forall₂ (t.TakesMember room) front frontTexts)
    (hbad : t.RefusesMember room bad) :
    t.Refuses (room + 1) (before ++ byte '\x7b' ::
      (joined (frontTexts ++ bad :: backTexts) ++ byte '\x7d' :: after)) := by
  constructor
  · exact begins_append hbefore rfl (by decide)
  · intro enclosing stack rest hlimit _
    simp only [List.append_assoc, List.cons_append]
    exact readFrom_refusedObject hlimit hbefore hfront hbad _

end Treatment

/-- An object is refused if a member of it is, whatever comes after that one. -/
theorem readObject_refused {enclosing depth : Nat} {front : List (String × Value)}
    {frontTexts : List (List UInt8)} {bad before : List UInt8} (hbefore : Blank before)
    (hfront : List.Forall₂ (Treatment.keep.TakesMember depth) front frontTexts)
    (hbad : Treatment.keep.RefusesMember depth bad) (hroom : enclosing + depth + 1 = 127)
    (backTexts : List (List UInt8)) (rest : List UInt8) :
    readObject enclosing (before ++ byte '\x7b' ::
      (joined (frontTexts ++ bad :: backTexts) ++ byte '\x7d' :: rest)) = .error .malformed := by
  have hlimit : Treatment.keep.depthLimit = some (enclosing + 0 + (depth + 1)) :=
    congrArg some (by omega)
  have hvalue : readValue enclosing (before ++ byte '\x7b' ::
      (joined (frontTexts ++ bad :: backTexts) ++ byte '\x7d' :: rest)) = .error .malformed :=
    Treatment.readFrom_refusedObject hlimit hbefore hfront hbad rest
  have hnext : next (before ++ byte '\x7b' ::
      (joined (frontTexts ++ bad :: backTexts) ++ byte '\x7d' :: rest)) = .ok (byte '\x7b', _) :=
    next_of_blank_append hbefore rfl _
  simp only [readObject, hnext, if_true, hvalue]

end PerfRelay.Json
