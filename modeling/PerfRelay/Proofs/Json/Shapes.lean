import PerfRelay.Proofs.Json.Kept
import PerfRelay.Proofs.Json.Magnitude
import PerfRelay.Proofs.Json.Refused

/-!
# What it takes to keep a value

The grammar of JSON has values that are not kept: numbers beyond every binary64 number, strings with
one half of a code point but not the other, and arrays and objects nested too deep.  The shape of a
value tells which ones these are: how deep it is, and whether all of its words are sound.  A value
that fits the room at its place is kept, and any other one is refused.

Main results:

- Theorems `spells_of_spelled` and `readString_of_unpaired`: letters with all halves in pairs spell
  characters, and a string of any other ones is refused.
- Theorems `Shaped.keeps` and `Shaped.refuses`: a value is kept if it fits, and refused otherwise.
-/

namespace PerfRelay.Json

variable {room : Nat} {s : List UInt8}

/-! ## Letters of a string -/

/-- A character of a string, or a half of one, as it is written. -/
inductive Letter where
  /-- A character stands for itself. -/
  | plain (c : Char) (hquote : c ≠ '"') (hslash : c ≠ '\\') (hcontrol : 0x20 ≤ c.toNat)
  /-- A letter after a backslash. -/
  | short (b d : UInt8) (h : shortEscape? b = some d)
  /-- The four digits of a number. -/
  | unit (a b c d : UInt8) (n : Nat) (h : hexUnit? a b c d = some n)

/-- The bytes of a letter. -/
def Letter.bytes : Letter → List UInt8
  | .plain c _ _ _ => String.utf8EncodeChar c
  | .short b _ _ => [byte '\\', b]
  | .unit a b c d _ _ => [byte '\\', byte 'u', a, b, c, d]

/-- The bytes of some letters. -/
def written (letters : List Letter) : List UInt8 := letters.flatMap Letter.bytes

/-- The characters that some letters spell, if every half of a code point has the other one. -/
def spelled? : List Letter → Option (List Char)
  | [] => some []
  | .plain c _ _ _ :: letters => (spelled? letters).map (c :: ·)
  | .short _ d _ :: letters => (spelled? letters).map (Char.ofNat d.toNat :: ·)
  | .unit _ _ _ _ n _ :: letters =>
    if 0xdc00 ≤ n ∧ n ≤ 0xdfff then none
    else if 0xd800 ≤ n ∧ n ≤ 0xdbff then
      match letters with
      | .unit _ _ _ _ low _ :: letters =>
        if 0xdc00 ≤ low ∧ low ≤ 0xdfff then
          (spelled? letters).map
            (Char.ofNat (0x10000 + (n - 0xd800) * 0x400 + (low - 0xdc00)) :: ·)
        else none
      | _ => none
    else (spelled? letters).map (Char.ofNat n :: ·)

theorem written_cons (letter : Letter) (letters : List Letter) :
    written (letter :: letters) = letter.bytes ++ written letters :=
  List.flatMap_cons

/-- Letters with all halves in pairs spell characters. -/
theorem spells_of_spelled {letters : List Letter} {chars : List Char}
    (h : spelled? letters = some chars) : Spells chars (written letters) := by
  fun_induction spelled? letters generalizing chars with
  | case1 =>
    cases h
    exact .nil
  | case2 c hquote hslash hcontrol letters ih =>
    obtain ⟨more, hmore, rfl⟩ := Option.map_eq_some_iff.1 h
    exact .plain hquote hslash hcontrol (ih hmore)
  | case3 b d hshort letters ih =>
    obtain ⟨more, hmore, rfl⟩ := Option.map_eq_some_iff.1 h
    exact .escaped (.short hshort) (ih hmore)
  | case4 => cases h
  | case5 a b c d n hunit hlow hhigh a' b' c' d' low hunit' letters hsecond ih =>
    obtain ⟨more, hmore, rfl⟩ := Option.map_eq_some_iff.1 h
    have hspells := Spells.escaped (.pair hunit hunit' hhigh hsecond) (ih hmore)
    exact hspells
  | case6 => cases h
  | case7 => cases h
  | case8 a b c d n hunit letters hlow hhigh ih =>
    obtain ⟨more, hmore, rfl⟩ := Option.map_eq_some_iff.1 h
    exact .escaped (.unit hunit hlow hhigh) (ih hmore)

/-- What spells characters is made of letters with all halves in pairs. -/
theorem exists_letters {chars : List Char} (h : Spells chars s) :
    ∃ letters, written letters = s ∧ spelled? letters = some chars := by
  induction h with
  | nil => exact ⟨[], rfl, rfl⟩
  | @plain c chars s hquote hslash hcontrol _ ih =>
    obtain ⟨letters, rfl, hspelled⟩ := ih
    refine ⟨.plain c hquote hslash hcontrol :: letters, written_cons _ _, ?_⟩
    rw [spelled?, hspelled, Option.map_some]
  | escaped hescape _ ih =>
    obtain ⟨letters, rfl, hspelled⟩ := ih
    cases hescape with
    | @short b d hshort =>
      refine ⟨.short b d hshort :: letters, written_cons _ _, ?_⟩
      rw [spelled?, hspelled, Option.map_some]
    | @unit a b c d n hunit hlow hhigh =>
      refine ⟨.unit a b c d n hunit :: letters, written_cons _ _, ?_⟩
      rw [spelled?.eq_def]
      simp only [if_neg hlow, if_neg hhigh, hspelled, Option.map_some]
    | @pair a b c d a' b' c' d' high low hunit hunit' hhigh hlow =>
      have hnotLow : ¬ (0xdc00 ≤ high ∧ high ≤ 0xdfff) := by omega
      refine ⟨.unit a b c d high hunit :: .unit a' b' c' d' low hunit' :: letters, rfl, ?_⟩
      simp only [spelled?, if_neg hnotLow, if_pos hhigh, if_pos hlow, hspelled, Option.map_some]

/-! ## Halves without the other one -/

/-- What begins with no escape has no second half in front. -/
theorem readSecondHalf_of_ne {b : UInt8} (h : b ≠ byte '\\') (high : Nat) (rest : List UInt8) :
    readSecondHalf high (b :: rest) = .error .malformed := by
  simp only [readSecondHalf, ne_eq, h, not_false_eq_true, if_true]

/-- Letters that do not begin with a second half. -/
theorem readSecondHalf_of_letters {letters : List Letter}
    (h : ∀ a b c d low hunit more, letters = .unit a b c d low hunit :: more →
      ¬ (0xdc00 ≤ low ∧ low ≤ 0xdfff)) (high : Nat) (rest : List UInt8) :
    readSecondHalf high (written letters ++ byte '"' :: rest) = .error .malformed := by
  rcases letters with _ | ⟨letter, letters⟩
  · exact readSecondHalf_of_ne (by decide) high rest
  rw [written_cons]
  cases letter with
  | plain c hquote hslash hcontrol =>
    have hplain := encodeChar_plain hquote hslash hcontrol
    rw [Letter.bytes]
    rcases hbytes : String.utf8EncodeChar c with _ | ⟨b, bytes⟩
    · exact absurd hbytes (by simp)
    · rw [hbytes] at hplain
      exact readSecondHalf_of_ne (hplain b List.mem_cons_self).2.1 high _
  | short b d hshort =>
    have hletter : b ≠ byte 'u' := (encodeChar_of_shortEscape? hshort).1
    simp only [Letter.bytes, List.cons_append, List.nil_append, readSecondHalf, ne_eq,
      not_true_eq_false, if_false, if_pos hletter]
  | unit a b c d low hunit =>
    have hlow := h a b c d low hunit letters rfl
    simp only [Letter.bytes, List.cons_append, List.nil_append, readSecondHalf, ne_eq,
      not_true_eq_false, if_false, readUnit, hunit, if_neg hlow]

/-- A first half is refused if the second one is. -/
theorem readEscape_of_firstHalf {a b c d : UInt8} {high : Nat} {stop : Stop}
    (hunit : hexUnit? a b c d = some high) (hlow : ¬ (0xdc00 ≤ high ∧ high ≤ 0xdfff))
    (hhigh : 0xd800 ≤ high ∧ high ≤ 0xdbff) (h : readSecondHalf high s = .error stop) :
    readEscape (byte 'u' :: a :: b :: c :: d :: s) = .error stop := by
  simp only [readEscape, if_true, readCodePoint, readUnit, hunit, if_neg hlow, if_pos hhigh, h]

/-- An escape that cannot be read ends the string that it stands in. -/
theorem run_stringLoop_of_error {stop : Stop} (h : readEscape s = .error stop)
    (seen : List UInt8) : stringLoop.run seen (byte '\\' :: s) = .error stop := by
  apply Loop.run_of_error
  simp only [stringLoop]
  rw [stringStep, if_neg (by decide), if_pos rfl, h]
  rfl

/-- Letters with a half that lacks the other one are refused.  The induction is on the letters. -/
theorem run_stringLoop_of_unpaired {letters : List Letter} (h : spelled? letters = none)
    (seen rest : List UInt8) :
    stringLoop.run seen (written letters ++ byte '"' :: rest) = .error .malformed := by
  fun_induction spelled? letters generalizing seen with
  | case1 => cases h
  | case2 c hquote hslash hcontrol letters ih =>
    rw [Option.map_eq_none_iff] at h
    rw [written_cons, List.append_assoc, Letter.bytes,
      run_stringLoop_plain (encodeChar_plain hquote hslash hcontrol), ih h]
  | case3 b d hshort letters ih =>
    rw [Option.map_eq_none_iff] at h
    have hescape : Escapes _ [b] := .short hshort
    exact (run_stringLoop_escaped hescape _ _).trans (ih h _)
  | case4 a b c d n hunit letters hlow =>
    have hescape : readEscape (byte 'u' :: a :: b :: c :: d :: (written letters ++
        byte '"' :: rest)) = .error .malformed := by
      simp only [readEscape, if_true, readCodePoint, readUnit, hunit, if_pos hlow]
    exact run_stringLoop_of_error hescape seen
  | case5 a b c d n hunit hlow hhigh a' b' c' d' low hunit' letters hsecond ih =>
    rw [Option.map_eq_none_iff] at h
    have hescape : Escapes _ _ := .pair hunit hunit' hhigh hsecond
    exact (run_stringLoop_escaped hescape _ _).trans (ih h _)
  | case6 a b c d n hunit hlow hhigh a' b' c' d' low hunit' letters hsecond =>
    have hhalf : readSecondHalf n (written (.unit a' b' c' d' low hunit' :: letters) ++
        byte '"' :: rest) = .error .malformed := by
      apply readSecondHalf_of_letters
      rintro _ _ _ _ _ _ _ ⟨⟩
      exact hsecond
    exact run_stringLoop_of_error (readEscape_of_firstHalf hunit hlow hhigh hhalf) seen
  | case7 a b c d n hunit letters hlow hhigh hnone =>
    have hhalf : readSecondHalf n (written letters ++ byte '"' :: rest) = .error .malformed :=
      readSecondHalf_of_letters
        (fun a b c d low hunit more heq => (hnone a b c d low hunit more heq).elim) n rest
    exact run_stringLoop_of_error (readEscape_of_firstHalf hunit hlow hhigh hhalf) seen
  | case8 a b c d n hunit letters hlow hhigh ih =>
    rw [Option.map_eq_none_iff] at h
    have hescape : Escapes _ _ := .unit hunit hlow hhigh
    exact (run_stringLoop_escaped hescape _ _).trans (ih h _)

theorem readString_of_unpaired {letters : List Letter} (h : spelled? letters = none)
    (rest : List UInt8) : readString (written letters ++ byte '"' :: rest) = .error .malformed :=
  run_stringLoop_of_unpaired h [] rest

/-! ## Shapes -/

/-- What it takes to keep a value: how many arrays and objects are inside one another in it, and
whether its numbers are in range and its strings spell characters. -/
structure Shape where
  depth : Nat
  sound : Bool
deriving DecidableEq, Repr

namespace Shape

/-- Whether a value is kept where there is room for so many arrays and objects inside one another.
-/
def fits (shape : Shape) (room : Nat) : Bool := shape.sound && decide (shape.depth ≤ room)

/-- The shape of a member with the shape of its value, if its name spells characters. -/
def named (sound : Bool) (shape : Shape) : Shape := ⟨shape.depth, sound && shape.sound⟩

/-- The shape of an array or object with the shapes of its parts. -/
def around (parts : List Shape) : Shape :=
  ⟨(parts.map (·.depth)).foldr max 0 + 1, parts.all (·.sound)⟩

variable {shape : Shape} {parts : List Shape}

theorem fits_named (sound : Bool) (shape : Shape) (room : Nat) :
    (shape.named sound).fits room = (sound && shape.fits room) :=
  Bool.and_assoc ..

theorem fits_word (sound : Bool) (room : Nat) : fits ⟨0, sound⟩ room = sound := by
  simp [fits]

theorem fits_around_zero (parts : List Shape) : (around parts).fits 0 = false :=
  Bool.and_false _

theorem foldr_max_le_iff {depths : List Nat} {n : Nat} :
    depths.foldr max 0 ≤ n ↔ ∀ depth ∈ depths, depth ≤ n := by
  induction depths with
  | nil => simp
  | cons depth depths ih => simp [ih]

/-- An array or object fits if all of its parts do, with room for one less around them. -/
theorem fits_around_succ (parts : List Shape) (room : Nat) :
    (around parts).fits (room + 1) = parts.all (·.fits room) := by
  rw [Bool.eq_iff_iff]
  simp only [fits, around, Bool.and_eq_true, decide_eq_true_eq, Nat.add_le_add_iff_right,
    foldr_max_le_iff, List.all_eq_true, List.forall_mem_map]
  exact forall₂_and.symm

end Shape

/-- The number that some digits are put together to is in the range of binary64 numbers. -/
def inRange (whole fraction exponent : List UInt8) : Bool :=
  decide ((numeralOf whole fraction exponent).magnitude < Binary64.overflow)

/-- A value that is neither an array nor an object, and whether it is sound. -/
inductive ShapedWord : Bool → List UInt8 → Prop where
  | null : ShapedWord true [byte 'n', byte 'u', byte 'l', byte 'l']
  | yes : ShapedWord true [byte 't', byte 'r', byte 'u', byte 'e']
  | no : ShapedWord true [byte 'f', byte 'a', byte 'l', byte 's', byte 'e']
  | text (letters : List Letter) :
      ShapedWord (spelled? letters).isSome (byte '"' :: (written letters ++ [byte '"']))
  | number {whole fraction exponent : List UInt8} (hwhole : Whole whole)
      (hfraction : Fraction fraction) (hexponent : Exponent exponent) :
      ShapedWord (inRange whole fraction exponent) (whole ++ (fraction ++ exponent))
  | negative {whole fraction exponent : List UInt8} (hwhole : Whole whole)
      (hfraction : Fraction fraction) (hexponent : Exponent exponent) :
      ShapedWord (inRange whole fraction exponent) (byte '-' :: (whole ++ (fraction ++ exponent)))

/-- The name of a member between white space, and whether it is sound. -/
inductive ShapedName : Bool → List UInt8 → Prop where
  | quoted {before after : List UInt8} (hbefore : Blank before) (letters : List Letter)
      (hafter : Blank after) :
      ShapedName (spelled? letters).isSome
        (before ++ byte '"' :: (written letters ++ byte '"' :: after))

/-- A value between white space, and its shape. -/
inductive Shaped : Shape → List UInt8 → Prop where
  | word {sound : Bool} {before word after : List UInt8} (hbefore : Blank before)
      (hword : ShapedWord sound word) (hafter : Blank after) :
      Shaped ⟨0, sound⟩ (before ++ (word ++ after))
  | emptyArray {before inside after : List UInt8} (hbefore : Blank before) (hinside : Blank inside)
      (hafter : Blank after) :
      Shaped (.around []) (before ++ byte '[' :: (inside ++ byte ']' :: after))
  | array {before after : List UInt8} {items : List (Shape × List UInt8)} (hbefore : Blank before)
      (hsome : items ≠ []) (hitems : ∀ item ∈ items, Shaped item.1 item.2)
      (hafter : Blank after) :
      Shaped (.around (items.map (·.1)))
        (before ++ byte '[' :: (joined (items.map (·.2)) ++ byte ']' :: after))
  | emptyObject {before inside after : List UInt8} (hbefore : Blank before)
      (hinside : Blank inside) (hafter : Blank after) :
      Shaped (.around []) (before ++ byte '\x7b' :: (inside ++ byte '\x7d' :: after))
  | object {before after : List UInt8}
      {members : List ((Bool × Shape) × (List UInt8 × List UInt8))} (hbefore : Blank before)
      (hsome : members ≠ []) (hnames : ∀ entry ∈ members, ShapedName entry.1.1 entry.2.1)
      (hvalues : ∀ entry ∈ members, Shaped entry.1.2 entry.2.2) (hafter : Blank after) :
      Shaped (.around (members.map fun entry => entry.1.2.named entry.1.1))
        (before ++ byte '\x7b' :: (joined (members.map fun entry => member entry.2) ++
          byte '\x7d' :: after))

/-- A string that says a text is sound. -/
theorem Says.shaped {text : String} (h : Says text s) : Shaped ⟨0, true⟩ s := by
  cases h with
  | @quoted before s after hbefore h hafter =>
    obtain ⟨letters, rfl, hspelled⟩ := exists_letters h
    have hword := ShapedWord.text letters
    rw [hspelled, Option.isSome_some] at hword
    have hshaped := Shaped.word hbefore hword hafter
    simpa only [List.cons_append, List.append_assoc, List.nil_append] using hshaped

/-! ## Words -/

section

variable {sound : Bool} {before word after : List UInt8}

/-- Letters with all halves in pairs say a text between quotes. -/
theorem says_of_spelled {letters : List Letter} (hbefore : Blank before)
    (h : (spelled? letters).isSome = true) (hafter : Blank after) :
    ∃ text, Says text (before ++ byte '"' :: (written letters ++ byte '"' :: after)) := by
  obtain ⟨chars, hchars⟩ := Option.isSome_iff_exists.1 h
  refine ⟨String.ofList chars, .quoted hbefore ?_ hafter⟩
  rw [String.toList_ofList]
  exact spells_of_spelled hchars

/-- A number has a value if and only if it is in range. -/
theorem value?_numeralOf_eq_none_iff {whole fraction : List UInt8} (hwhole : Whole whole)
    (hfraction : Fraction fraction) (exponent : List UInt8) (negative : Bool) :
    (numeralOf whole fraction exponent).value? negative = none ↔
      inRange whole fraction exponent = false := by
  rw [Numeral.value?_eq_none_iff negative (isDigit_places hwhole hfraction exponent), inRange,
    decide_eq_false_iff_not, not_lt]

/-- A number in range has a value, which is no text. -/
theorem exists_value {whole fraction exponent : List UInt8} (hwhole : Whole whole)
    (hfraction : Fraction fraction) (hrange : inRange whole fraction exponent = true)
    (negative : Bool) :
    ∃ v, (numeralOf whole fraction exponent).value? negative = some v ∧
      ∀ text, v ≠ .string text := by
  have hsome : (numeralOf whole fraction exponent).value? negative ≠ none := by
    rw [Ne, value?_numeralOf_eq_none_iff hwhole hfraction, hrange]
    exact Bool.noConfusion
  obtain ⟨v, hv⟩ := Option.ne_none_iff_exists'.1 hsome
  refine ⟨v, hv, ?_⟩
  rintro text rfl
  exact Numeral.value?_ne_string _ _ text hv

/-- A whole number that fits a word is in range. -/
theorem inRange_of_whole {digits : List UInt8} (h : Whole digits)
    (hrange : digitsValue digits < 2 ^ 64) : inRange digits [] [] = true := by
  have hvalue : (numeralOf digits [] []).value? false = some (.int (digitsValue digits)) :=
    if_pos hrange
  rw [← Bool.not_eq_false, ← value?_numeralOf_eq_none_iff h .nil [] false, hvalue]
  exact Option.some_ne_none _

/-- A word that is sound is kept, and as a text only if it says that text. -/
theorem ShapedWord.keeps (hbefore : Blank before) (h : ShapedWord sound word)
    (hsound : sound = true) (hafter : Blank after) :
    ∃ v, Keeps room v (before ++ (word ++ after)) ∧
      ∀ text, v = .string text → Says text (before ++ (word ++ after)) := by
  cases h with
  | null => exact ⟨.null, keeps_null hbefore hafter, by rintro text ⟨⟩⟩
  | yes =>
    refine ⟨.bool true, ?_, by rintro text ⟨⟩⟩
    exact Treatment.takes_word hbefore ⟨rfl, by decide, by decide, by decide⟩ (fun _ _ => rfl)
      hafter
  | no =>
    refine ⟨.bool false, ?_, by rintro text ⟨⟩⟩
    exact Treatment.takes_word hbefore ⟨rfl, by decide, by decide, by decide⟩ (fun _ _ => rfl)
      hafter
  | text letters =>
    obtain ⟨text, hquoted⟩ := says_of_spelled hbefore hsound hafter
    simp only [List.cons_append, List.append_assoc, List.nil_append]
    refine ⟨.string text, hquoted.keeps, ?_⟩
    rintro _ ⟨⟩
    exact hquoted
  | @number whole fraction exponent hwhole hfraction hexponent =>
    obtain ⟨v, hv, hother⟩ := exists_value hwhole hfraction hsound false
    exact ⟨v, keeps_number hbefore hwhole hfraction hexponent hv hafter,
      fun text heq => absurd heq (hother text)⟩
  | @negative whole fraction exponent hwhole hfraction hexponent =>
    obtain ⟨v, hv, hother⟩ := exists_value hwhole hfraction hsound true
    exact ⟨v, keeps_negative hbefore hwhole hfraction hexponent hv hafter,
      fun text heq => absurd heq (hother text)⟩

/-- A word that is not sound is refused. -/
theorem ShapedWord.refuses (hbefore : Blank before) (h : ShapedWord sound word)
    (hsound : sound = false) (hafter : Blank after) :
    Treatment.keep.Refuses room (before ++ (word ++ after)) := by
  cases h with
  | null => cases hsound
  | yes => cases hsound
  | no => cases hsound
  | text letters =>
    have hnone : spelled? letters = none := by simpa using hsound
    refine Treatment.refuses_word hbefore ⟨rfl, by decide, by decide, by decide⟩
      (fun rest _ => ?_) hafter
    have hread := readString_of_unpaired hnone rest
    rw [List.append_assoc, List.singleton_append]
    change (readString _).map _ = _
    rw [hread]
    rfl
  | @number whole fraction exponent hwhole hfraction hexponent =>
    have hv := (value?_numeralOf_eq_none_iff hwhole hfraction exponent false).2 hsound
    obtain ⟨b, tail, rfl, hdigit⟩ := hwhole.exists_digit
    have hscalar : ∀ rest, Follows rest → Treatment.keep.scalar b
        ((tail ++ (fraction ++ exponent)) ++ rest) = .error .malformed := by
      intro rest hrest
      have hread := readNumber_of_none hwhole hfraction hexponent hv hrest
      change readScalar b _ = _
      rw [readScalar_of_isDigit hdigit, List.append_assoc, List.append_assoc]
      exact hread
    exact Treatment.refuses_word hbefore (beginsWord_of_isDigit hdigit) hscalar hafter
  | @negative whole fraction exponent hwhole hfraction hexponent =>
    have hv := (value?_numeralOf_eq_none_iff hwhole hfraction exponent true).2 hsound
    refine Treatment.refuses_word hbefore ⟨rfl, by decide, by decide, by decide⟩
      (fun rest hrest => ?_) hafter
    rw [List.append_assoc, List.append_assoc]
    exact readNumber_of_none hwhole hfraction hexponent hv hrest

/-- A name that is sound is kept as its text. -/
theorem ShapedName.keeps {name : List UInt8} (h : ShapedName sound name) (hsound : sound = true) :
    ∃ key, Treatment.keep.TakesKey key name := by
  cases h with
  | quoted hbefore letters hafter =>
    obtain ⟨text, hquoted⟩ := says_of_spelled hbefore hsound hafter
    exact ⟨text, hquoted.keepsKey⟩

/-- A name that is not sound is refused. -/
theorem ShapedName.refuses {name : List UInt8} (h : ShapedName sound name)
    (hsound : sound = false) : Treatment.keep.RefusesKey name := by
  cases h with
  | quoted hbefore letters hafter =>
    have hnone : spelled? letters = none := by simpa using hsound
    exact Treatment.refusesKey_quoted hbefore (readString_of_unpaired hnone)

/-- A member that fits is kept if its value is. -/
theorem ShapedName.keepsMember {shape : Shape} {entry : List UInt8 × List UInt8}
    (hname : ShapedName sound entry.1) (hvalue : shape.fits room = true → ∃ v, Keeps room v entry.2)
    (hfits : (shape.named sound).fits room = true) :
    ∃ kept, KeepsMember room kept (member entry) := by
  rw [Shape.fits_named, Bool.and_eq_true] at hfits
  obtain ⟨key, hkey⟩ := hname.keeps hfits.1
  obtain ⟨v, hv⟩ := hvalue hfits.2
  exact ⟨(key, v), .member hkey hv⟩

/-- A member that does not fit is refused, at its name or at its value. -/
theorem ShapedName.refusesMember {shape : Shape} {entry : List UInt8 × List UInt8}
    (hname : ShapedName sound entry.1)
    (hvalue : shape.fits room = false → Treatment.keep.Refuses room entry.2)
    (hfits : (shape.named sound).fits room = false) :
    Treatment.keep.RefusesMember room (member entry) := by
  rw [Shape.fits_named, Bool.and_eq_false_iff] at hfits
  cases hsound : sound with
  | false => exact .key (hname.refuses hsound)
  | true =>
    obtain ⟨key, hkey⟩ := hname.keeps hsound
    exact .value hkey (hvalue (hfits.resolve_left (by simp [hsound])))

end

/-! ## Values -/

/-- Where every part has a result, there is a row of results. -/
theorem exists_forall₂ {α β γ : Type} {R : β → γ → Prop} {f : α → γ} {parts : List α}
    (h : ∀ part ∈ parts, ∃ result, R result (f part)) :
    ∃ results, List.Forall₂ R results (parts.map f) := by
  induction parts with
  | nil => exact ⟨[], .nil⟩
  | cons part parts ih =>
    obtain ⟨result, hresult⟩ := h part List.mem_cons_self
    obtain ⟨results, hresults⟩ := ih fun other hother => h other (List.mem_cons_of_mem _ hother)
    exact ⟨result :: results, .cons hresult hresults⟩

/-- A row of parts that are not all in order has a first one that is not. -/
theorem exists_first_of_all_eq_false {α : Type} {p : α → Bool} {parts : List α}
    (h : parts.all p = false) :
    ∃ front bad back, parts = front ++ bad :: back ∧ (∀ part ∈ front, p part = true) ∧
      p bad = false := by
  obtain ⟨bad, hbad⟩ : ∃ bad, parts.find? (fun part => !p part) = some bad := by
    rw [← Option.isSome_iff_exists, List.find?_isSome]
    simpa using h
  obtain ⟨hmisfit, front, back, rfl, hfront⟩ := List.find?_eq_some_iff_append.1 hbad
  exact ⟨front, bad, back, rfl, by simpa using hfront, by simpa using hmisfit⟩

/-- A value that fits is kept, and as a text only if it says that text.  The induction is on the
value. -/
theorem Shaped.keeps {shape : Shape} (h : Shaped shape s) (hfits : shape.fits room = true) :
    ∃ v, Keeps room v s ∧ ∀ text, v = .string text → Says text s := by
  induction h generalizing room with
  | word hbefore hword hafter =>
    rw [Shape.fits_word] at hfits
    exact hword.keeps hbefore hfits hafter
  | emptyArray hbefore hinside hafter =>
    rcases room with _ | room
    · cases (Shape.fits_around_zero []).symm.trans hfits
    · exact ⟨.array [], Treatment.takes_emptyArray hbefore hinside hafter, by rintro text ⟨⟩⟩
  | @array before after items hbefore _ _ hafter ih =>
    rcases room with _ | room
    · cases (Shape.fits_around_zero _).symm.trans hfits
    · rw [Shape.fits_around_succ, List.all_map, List.all_eq_true] at hfits
      have hkeeps : ∀ item ∈ items, ∃ v, Keeps room v item.2 :=
        fun item hitem => (ih item hitem (hfits item hitem)).imp fun _ => And.left
      obtain ⟨values, hvalues⟩ := exists_forall₂ hkeeps
      exact ⟨.array values, Treatment.takes_array hbefore hvalues hafter, by rintro text ⟨⟩⟩
  | emptyObject hbefore hinside hafter =>
    rcases room with _ | room
    · cases (Shape.fits_around_zero []).symm.trans hfits
    · exact ⟨.object [], Treatment.takes_emptyObject hbefore hinside hafter, by rintro text ⟨⟩⟩
  | @object before after members hbefore _ hnames _ hafter ih =>
    rcases room with _ | room
    · cases (Shape.fits_around_zero _).symm.trans hfits
    · rw [Shape.fits_around_succ, List.all_map, List.all_eq_true] at hfits
      have hkeeps : ∀ entry ∈ members, ∃ kept, KeepsMember room kept (member entry.2) := by
        intro entry hentry
        exact (hnames entry hentry).keepsMember
          (fun hvalue => (ih entry hentry hvalue).imp fun _ => And.left) (hfits entry hentry)
      obtain ⟨values, hvalues⟩ := exists_forall₂ hkeeps
      exact ⟨.ofMembers values, Treatment.takes_object hbefore hvalues hafter, by rintro text ⟨⟩⟩

/-- A value that does not fit is refused.  The induction is on the value; what counts is its first
part that does not fit. -/
theorem Shaped.refuses {shape : Shape} (h : Shaped shape s) (hfits : shape.fits room = false) :
    Treatment.keep.Refuses room s := by
  induction h generalizing room with
  | word hbefore hword hafter =>
    rw [Shape.fits_word] at hfits
    exact hword.refuses hbefore hfits hafter
  | emptyArray hbefore hinside hafter =>
    rcases room with _ | room
    · exact Treatment.refuses_openArray hbefore _
    · rw [Shape.fits_around_succ] at hfits
      cases hfits
  | @array before after items hbefore _ hitems hafter ih =>
    rcases room with _ | room
    · exact Treatment.refuses_openArray hbefore _
    · rw [Shape.fits_around_succ, List.all_map] at hfits
      obtain ⟨front, bad, back, rfl, hfront, hbad⟩ := exists_first_of_all_eq_false hfits
      have hkeeps : ∀ item ∈ front, ∃ v, Keeps room v item.2 := by
        intro item hitem
        have hmem := List.mem_append_left (bad :: back) hitem
        exact ((hitems item hmem).keeps (hfront item hitem)).imp fun _ => And.left
      obtain ⟨values, hvalues⟩ := exists_forall₂ hkeeps
      have hmem : bad ∈ front ++ bad :: back := List.mem_append_right _ List.mem_cons_self
      rw [List.map_append, List.map_cons]
      exact Treatment.refuses_array hbefore hvalues (ih bad hmem hbad)
  | emptyObject hbefore hinside hafter =>
    rcases room with _ | room
    · exact Treatment.refuses_openObject hbefore _
    · rw [Shape.fits_around_succ] at hfits
      cases hfits
  | @object before after members hbefore _ hnames hvalues hafter ih =>
    rcases room with _ | room
    · exact Treatment.refuses_openObject hbefore _
    · rw [Shape.fits_around_succ, List.all_map] at hfits
      obtain ⟨front, bad, back, rfl, hfront, hbad⟩ := exists_first_of_all_eq_false hfits
      have hkeeps : ∀ entry ∈ front, ∃ kept, KeepsMember room kept (member entry.2) := by
        intro entry hentry
        have hmem := List.mem_append_left (bad :: back) hentry
        exact (hnames entry hmem).keepsMember
          (fun hvalue => ((hvalues entry hmem).keeps hvalue).imp fun _ => And.left)
          (hfront entry hentry)
      obtain ⟨values, hkept⟩ := exists_forall₂ hkeeps
      have hmem : bad ∈ front ++ bad :: back := List.mem_append_right _ List.mem_cons_self
      have hrefuses : Treatment.keep.RefusesMember room (member bad.2) :=
        (hnames bad hmem).refusesMember (ih bad hmem) hbad
      rw [List.map_append, List.map_cons]
      exact Treatment.refuses_object hbefore hkept hrefuses

/-! ## Members with a name -/

/-- A member as it is written, with its name and the shape of its value. -/
structure ShapedMember where
  name : String
  shape : Shape
  key : List UInt8
  value : List UInt8
  keyText : Says name key
  valueShape : Shaped shape value

namespace ShapedMember

/-- The bytes of a member. -/
def bytes (entry : ShapedMember) : List UInt8 := member (entry.key, entry.value)

/-- A member whose value fits is kept with its name. -/
theorem keeps (entry : ShapedMember) (h : entry.shape.fits room = true) :
    ∃ v, KeepsMember room (entry.name, v) entry.bytes ∧
      ∀ text, v = .string text → Says text entry.value := by
  obtain ⟨v, hv, htext⟩ := entry.valueShape.keeps h
  exact ⟨v, .member entry.keyText.keepsKey hv, htext⟩

/-- Members whose values fit are kept with their names. -/
theorem exists_keeps {entries : List ShapedMember}
    (h : ∀ entry ∈ entries, entry.shape.fits room = true) :
    ∃ kept : List (String × Value),
      List.Forall₂ (KeepsMember room) kept (entries.map bytes) ∧
        kept.map (·.1) = entries.map name := by
  induction entries with
  | nil => exact ⟨[], .nil, rfl⟩
  | cons entry entries ih =>
    obtain ⟨v, hv, -⟩ := entry.keeps (h entry List.mem_cons_self)
    obtain ⟨kept, hkept, hnames⟩ := ih fun other hother => h other (List.mem_cons_of_mem _ hother)
    exact ⟨(entry.name, v) :: kept, .cons hv hkept, congrArg (entry.name :: ·) hnames⟩

/-- A member whose value does not fit is refused. -/
theorem refuses (entry : ShapedMember) (h : entry.shape.fits room = false) :
    Treatment.keep.RefusesMember room entry.bytes :=
  .value entry.keyText.keepsKey (entry.valueShape.refuses h)

end ShapedMember

end PerfRelay.Json
