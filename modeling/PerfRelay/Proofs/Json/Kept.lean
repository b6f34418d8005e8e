import PerfRelay.Json.Printer
import PerfRelay.Proofs.Dictionary
import PerfRelay.Proofs.Json.Parts

/-!
# Values that are kept

What is kept of a value does not depend on the way it is written: on the white space in it, or on
how its strings are spelled.  Of the members with one name the last one stays, so members with
distinct names, in their order, are kept as they are; and that is how they are printed.

Main results:

- Theorem `parseWithin_of_keeps`: a value is read from what it is kept from.
- Theorem `readObject_of_members`: an object is read up to its brace, whatever comes after that.
- Theorems `keeps_array_bytes` and `keeps_object_bytes`: an array or an object is kept from what is
  printed of it, if its parts are.
-/

namespace PerfRelay.Json

/-- Values are kept with so many arrays and objects open at a time at most, if that is limited. -/
def Treatment.keepWithin (limit : Option Nat) : Treatment Value String :=
  { Treatment.keep with depthLimit := limit }

/-- The value of a JSON text, if no more arrays and objects are open in it at a time than that. -/
def parseWithin (limit : Option Nat) (s : List UInt8) : Except Stop Value :=
  readDocument ((Treatment.keepWithin limit).read 0) s

/-- A value is kept from some bytes, with so many arrays and objects inside one another at most,
wherever so many may be open. -/
abbrev KeepsWithin (limit : Option Nat) (depth : Nat) (v : Value) (s : List UInt8) : Prop :=
  (Treatment.keepWithin limit).Takes depth v s

/-- A value is kept from some bytes, with so many arrays and objects inside one another at most. -/
abbrev Keeps (depth : Nat) (v : Value) (s : List UInt8) : Prop := Treatment.keep.Takes depth v s

/-- A member is kept from some bytes. -/
abbrev KeepsMember (depth : Nat) (entry : String × Value) (s : List UInt8) : Prop :=
  Treatment.keep.TakesMember depth entry s

variable {limit : Option Nat} {enclosing depth : Nat} {v : Value} {s rest : List UInt8}

theorem parse_eq_parseWithin (s : List UInt8) : parse s = parseWithin (some 127) s := rfl

theorem keep_allows (h : depth ≤ 127) : Treatment.keep.Allows depth := by
  intro limit hlimit
  cases hlimit
  exact h

/-- Nothing may follow a value. -/
theorem follows_nil : Follows [] := by
  intro b hb
  cases hb

/-- The value of a text that is kept. -/
theorem parseWithin_of_keeps (h : KeepsWithin limit depth v s)
    (hroom : (Treatment.keepWithin limit).Allows depth) : parseWithin limit s = .ok v := by
  rw [← Nat.zero_add depth] at hroom
  obtain ⟨gap, hgap, hread⟩ := h.read_eq hroom follows_nil
  rw [List.append_nil, List.append_nil] at hread
  rw [parseWithin, readDocument, hread]
  exact if_pos (isAtEnd_iff.2 hgap)

theorem parse_of_keeps (h : Keeps depth v s) (hroom : depth ≤ 127) : parse s = .ok v :=
  parseWithin_of_keeps h (keep_allows hroom)

/-! ## Words -/

theorem keeps_null {before after : List UInt8} (hbefore : Blank before) (hafter : Blank after) :
    KeepsWithin limit depth .null
      (before ++ ([byte 'n', byte 'u', byte 'l', byte 'l'] ++ after)) :=
  Treatment.takes_word hbefore ⟨rfl, by decide, by decide, by decide⟩ (fun _ _ => rfl) hafter

/-- A string is kept as its text. -/
theorem Says.keeps {text : String} (h : Says text s) :
    KeepsWithin limit depth (.string text) s := by
  cases h with
  | @quoted before s after hbefore h hafter =>
    have hscalar : ∀ rest, Follows rest → (Treatment.keepWithin limit).scalar (byte '"')
        ((s ++ [byte '"']) ++ rest) = .ok (.string text, rest) := by
      intro rest _
      have hread : readString (s ++ byte '"' :: rest) = .ok (text, rest) :=
        readString_of_spells h rest
      rw [List.append_assoc, List.singleton_append]
      change (readString _).map _ = _
      rw [hread]
      rfl
    have hword : KeepsWithin limit depth (.string text) _ := Treatment.takes_word hbefore
      ⟨rfl, by decide, by decide, by decide⟩ hscalar hafter
    simpa only [List.cons_append, List.append_assoc, List.nil_append] using hword

/-- A name is kept as its text. -/
theorem Says.keepsKey {name : String} (h : Says name s) :
    (Treatment.keepWithin limit).TakesKey name s := by
  cases h with
  | quoted hbefore h hafter =>
    exact Treatment.takesKey_quoted hbefore (readString_of_spells h) hafter

/-- A number is read as its value, whatever may follow it. -/
theorem readNumber_of_value {negative : Bool} {whole fraction exponent : List UInt8}
    (hwhole : Whole whole) (hfraction : Fraction fraction) (hexponent : Exponent exponent)
    (h : (numeralOf whole fraction exponent).value? negative = some v) (hrest : Follows rest) :
    readNumber negative (whole ++ (fraction ++ (exponent ++ rest))) = .ok (v, rest) := by
  simp only [readNumber, scanNumeral_of_number .endOfInput hwhole hfraction hexponent hrest, h]

/-- A number without a value is refused. -/
theorem readNumber_of_none {negative : Bool} {whole fraction exponent : List UInt8}
    (hwhole : Whole whole) (hfraction : Fraction fraction) (hexponent : Exponent exponent)
    (h : (numeralOf whole fraction exponent).value? negative = none) (hrest : Follows rest) :
    readNumber negative (whole ++ (fraction ++ (exponent ++ rest))) = .error .malformed := by
  simp only [readNumber, scanNumeral_of_number .endOfInput hwhole hfraction hexponent hrest, h]

/-- A digit begins a number. -/
theorem readScalar_of_isDigit {b : UInt8} (h : isDigit b = true) (rest : List UInt8) :
    readScalar b rest = readNumber false (b :: rest) := by
  have hne : ∀ c, isDigit c = false → b ≠ c := by
    rintro c hc rfl
    rw [h] at hc
    cases hc
  rw [readScalar, if_neg (hne _ rfl), if_neg (hne _ rfl), if_neg (hne _ rfl), if_neg (hne _ rfl),
    if_neg (hne _ rfl), if_pos h]

/-- A number without a sign is kept as its value, if it has one. -/
theorem keeps_number {before whole fraction exponent after : List UInt8} (hbefore : Blank before)
    (hwhole : Whole whole) (hfraction : Fraction fraction) (hexponent : Exponent exponent)
    (h : (numeralOf whole fraction exponent).value? false = some v) (hafter : Blank after) :
    KeepsWithin limit depth v (before ++ (whole ++ (fraction ++ exponent) ++ after)) := by
  obtain ⟨b, tail, rfl, hdigit⟩ := hwhole.exists_digit
  have hscalar : ∀ rest, Follows rest → (Treatment.keepWithin limit).scalar b
      ((tail ++ (fraction ++ exponent)) ++ rest) = .ok (v, rest) := by
    intro rest hrest
    have hread := readNumber_of_value hwhole hfraction hexponent h hrest
    change readScalar b _ = _
    rw [readScalar_of_isDigit hdigit, List.append_assoc, List.append_assoc]
    exact hread
  exact Treatment.takes_word hbefore (beginsWord_of_isDigit hdigit) hscalar hafter

/-- A number behind a minus sign is kept as its value, if it has one. -/
theorem keeps_negative {before whole fraction exponent after : List UInt8} (hbefore : Blank before)
    (hwhole : Whole whole) (hfraction : Fraction fraction) (hexponent : Exponent exponent)
    (h : (numeralOf whole fraction exponent).value? true = some v) (hafter : Blank after) :
    KeepsWithin limit depth v
      (before ++ (byte '-' :: (whole ++ (fraction ++ exponent)) ++ after)) := by
  have hscalar : ∀ rest, Follows rest → (Treatment.keepWithin limit).scalar (byte '-')
      ((whole ++ (fraction ++ exponent)) ++ rest) = .ok (v, rest) := by
    intro rest hrest
    rw [List.append_assoc, List.append_assoc]
    exact readNumber_of_value hwhole hfraction hexponent h hrest
  exact Treatment.takes_word hbefore ⟨rfl, by decide, by decide, by decide⟩ hscalar hafter

/-- A whole number that fits a word is kept exactly. -/
theorem keeps_whole {before digits after : List UInt8} (hbefore : Blank before)
    (h : Whole digits) (hrange : digitsValue digits < Nat.pow 2 64) (hafter : Blank after) :
    KeepsWithin limit depth (.int (digitsValue digits)) (before ++ (digits ++ after)) := by
  have hvalue : (numeralOf digits [] []).value? false = some (.int (digitsValue digits)) :=
    if_pos hrange
  have hnumber : KeepsWithin limit depth _ _ := keeps_number hbefore h .nil .nil hvalue hafter
  simpa only [List.append_nil] using hnumber

/-- So is one below zero, if it fits a word with a sign. -/
theorem keeps_negativeWhole {before digits after : List UInt8} (hbefore : Blank before)
    (h : Whole digits) (hrange : 0 < digitsValue digits ∧ digitsValue digits ≤ Nat.pow 2 63)
    (hafter : Blank after) :
    KeepsWithin limit depth (.int (-(digitsValue digits : Int)))
      (before ++ (byte '-' :: digits ++ after)) := by
  have hvalue : (numeralOf digits [] []).value? true =
      some (.int (-(digitsValue digits : Int))) :=
    if_pos hrange
  have hnumber : KeepsWithin limit depth _ _ := keeps_negative hbefore h .nil .nil hvalue hafter
  simpa only [List.append_nil] using hnumber

/-! ## Objects -/

/-- An object is read up to its brace, whatever comes after that; of the members with one name the
last one stays. -/
theorem readObject_of_members {members : List (String × Value)} {texts : List (List UInt8)}
    {before : List UInt8} (hbefore : Blank before)
    (h : List.Forall₂ (KeepsMember depth) members texts) (hroom : enclosing + depth < 127)
    (rest : List UInt8) :
    readObject enclosing (before ++ byte '\x7b' :: (joined texts ++ byte '\x7d' :: rest)) =
      .ok ((Dictionary.ofList members).entries, rest) := by
  have hallows : Treatment.keep.Allows (enclosing + 0 + (depth + 1)) := keep_allows hroom
  have hvalue : readValue enclosing
      (before ++ byte '\x7b' :: (joined texts ++ byte '\x7d' :: rest)) =
        .ok (.ofMembers members, rest) :=
    (Treatment.readFrom_object h hallows hbefore).trans (Loop.run_of_finish rfl)
  have hnext : next (before ++ byte '\x7b' :: (joined texts ++ byte '\x7d' :: rest)) =
      .ok (byte '\x7b', joined texts ++ byte '\x7d' :: rest) :=
    next_of_blank_append hbefore rfl _
  simp only [readObject, hnext, if_true, hvalue, Value.ofMembers, Value.ofDictionary]

theorem Value.ofMembers_of_sorted {members : List (String × Value)}
    (h : members.Pairwise (·.1 < ·.1)) : ofMembers members = .object members := by
  have hself := Dictionary.ofList_entries ⟨members, h⟩
  rw [ofMembers, ofDictionary, hself]

/-! ## What is printed -/

/-- The bytes that are printed for a value. -/
def Value.bytes (v : Value) : List UInt8 := Utf8.encode v.text

theorem Value.bytes_eq (v : Value) : v.bytes = (render v).flatMap String.utf8EncodeChar := by
  rw [bytes, text, Utf8.encode_ofList]

/-- What is printed for a text says that text. -/
theorem says_bytes (text : String) : Says text (Value.string text).bytes := by
  have hquote : String.utf8EncodeChar '"' = [byte '"'] := by decide
  have hblank : Blank [] := rfl
  rw [Value.bytes_eq, render_string, renderString, List.flatMap_append, List.flatMap_cons,
    List.flatMap_singleton, hquote]
  exact .quoted hblank (spells_escape text.toList) hblank

/-- The items of an array are printed with commas between them. -/
theorem bytes_renderItems (items : List Value) :
    (renderItems items).flatMap String.utf8EncodeChar = joined (items.map Value.bytes) := by
  have hcomma : String.utf8EncodeChar ',' = [byte ','] := by decide
  induction items with
  | nil => rfl
  | cons item items ih =>
    rcases items with _ | ⟨next, items⟩
    · simp [renderItems, joined, afterCommas, Value.bytes_eq]
    · rw [renderItems, List.flatMap_append, List.flatMap_cons, ih]
      · simp [joined, afterCommas, Value.bytes_eq, hcomma]
      · exact List.cons_ne_nil _ _

/-- The members of an object are printed with commas between them. -/
theorem bytes_renderMembers (members : List (String × Value)) :
    (renderMembers members).flatMap String.utf8EncodeChar =
      joined (members.map fun entry => member ((Value.string entry.1).bytes, entry.2.bytes)) := by
  have hcomma : String.utf8EncodeChar ',' = [byte ','] := by decide
  have hcolon : String.utf8EncodeChar ':' = [byte ':'] := by decide
  induction members with
  | nil => rfl
  | cons entry members ih =>
    obtain ⟨name, value⟩ := entry
    rcases members with _ | ⟨next, members⟩
    · simp [renderMembers, joined, afterCommas, member, Value.bytes_eq, render_string, hcolon]
    · rw [renderMembers, List.flatMap_append, List.flatMap_cons, List.flatMap_append,
        List.flatMap_cons, ih]
      · simp [joined, afterCommas, member, Value.bytes_eq, render_string, hcolon, hcomma]
      · exact List.cons_ne_nil _ _

theorem Value.bytes_array (items : List Value) :
    (Value.array items).bytes = byte '[' :: (joined (items.map Value.bytes) ++ [byte ']']) := by
  have hopen : String.utf8EncodeChar '[' = [byte '['] := by decide
  have hclose : String.utf8EncodeChar ']' = [byte ']'] := by decide
  rw [Value.bytes_eq, render, List.flatMap_append, List.flatMap_cons, bytes_renderItems,
    List.flatMap_singleton, hopen, hclose]
  rfl

theorem Value.bytes_object (members : List (String × Value)) :
    (Value.object members).bytes = byte '\x7b' ::
      (joined (members.map fun entry => member ((Value.string entry.1).bytes, entry.2.bytes)) ++
        [byte '\x7d']) := by
  have hopen : String.utf8EncodeChar '\x7b' = [byte '\x7b'] := by decide
  have hclose : String.utf8EncodeChar '\x7d' = [byte '\x7d'] := by decide
  rw [Value.bytes_eq, render, List.flatMap_append, List.flatMap_cons, bytes_renderMembers,
    List.flatMap_singleton, hopen, hclose]
  rfl

/-- An array is kept from what is printed of it, if its items are. -/
theorem keeps_array_bytes {items : List Value}
    (h : ∀ item ∈ items, KeepsWithin limit depth item item.bytes) :
    KeepsWithin limit (depth + 1) (.array items) (Value.array items).bytes := by
  have hitems : List.Forall₂ (KeepsWithin limit depth) items (items.map Value.bytes) := by
    rw [List.forall₂_map_right_iff, List.forall₂_same]
    exact h
  have hblank : Blank [] := rfl
  rw [Value.bytes_array]
  exact Treatment.takes_array hblank hitems hblank

/-- An object is kept from what is printed of it, if its members are. -/
theorem keeps_object_bytes {members : List (String × Value)}
    (hsorted : members.Pairwise (·.1 < ·.1))
    (h : ∀ entry ∈ members, KeepsWithin limit depth entry.2 entry.2.bytes) :
    KeepsWithin limit (depth + 1) (.object members) (Value.object members).bytes := by
  have hmembers : List.Forall₂ ((Treatment.keepWithin limit).TakesMember depth) members
      (members.map fun entry => member ((Value.string entry.1).bytes, entry.2.bytes)) := by
    rw [List.forall₂_map_right_iff, List.forall₂_same]
    intro entry hentry
    exact .member (says_bytes entry.1).keepsKey (h entry hentry)
  have hblank : Blank [] := rfl
  rw [Value.bytes_object, ← Value.ofMembers_of_sorted hsorted]
  exact Treatment.takes_object hblank hmembers hblank

end PerfRelay.Json
