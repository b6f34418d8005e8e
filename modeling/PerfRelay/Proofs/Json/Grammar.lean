import PerfRelay.Json.Document
import PerfRelay.Proofs.Json.Strings
import PerfRelay.Proofs.Json.Values

/-!
# The grammar of JSON

JSON texts as such: strings with escapes, numbers, literals, and arrays and objects of such values
to any depth, with white space wherever the grammar has it.  A string is read as the text it
spells, and a word of which nothing is wanted is passed over to its last byte.

A number has no end of its own.  So what is said of a value holds where something follows that may
follow a value: white space, a comma, or the end of an array or object.

Main results:

- Theorems `readName_of_says` and `readText_of_says`: a string is read as its text, however it is
  spelled.
- Theorem `skipNumber_of_number`: a number is passed over up to what may follow it.
- Theorem `skipScalar_of_word`: so is every word.
-/

namespace PerfRelay.Json

/-! ## Words -/

/-- The bytes between the quotes of a string. -/
inductive Quoted : List UInt8 → Prop where
  | nil : Quoted []
  | plain {b : UInt8} {s : List UInt8} (hquote : b ≠ byte '"') (hslash : b ≠ byte '\\')
      (hcontrol : ¬ b < 0x20) (h : Quoted s) : Quoted (b :: s)
  | short {b d : UInt8} {s : List UInt8} (hletter : shortEscape? b = some d) (h : Quoted s) :
      Quoted (byte '\\' :: b :: s)
  | unit {a b c d : UInt8} {n : Nat} {s : List UInt8} (hunit : hexUnit? a b c d = some n)
      (h : Quoted s) : Quoted (byte '\\' :: byte 'u' :: a :: b :: c :: d :: s)

/-- Digits, at least one. -/
structure Digits (s : List UInt8) : Prop where
  ne_nil : s ≠ []
  isDigit : ∀ b ∈ s, Json.isDigit b = true

/-- The digits before the point: a zero alone, or digits that do not begin with zero. -/
inductive Whole : List UInt8 → Prop where
  | zero : Whole [byte '0']
  | digits {b : UInt8} {s : List UInt8} (hzero : b ≠ byte '0') (h : Digits (b :: s)) :
      Whole (b :: s)

/-- The point and the digits after it, or nothing. -/
inductive Fraction : List UInt8 → Prop where
  | nil : Fraction []
  | digits {s : List UInt8} (h : Digits s) : Fraction (byte '.' :: s)

/-- The exponent with its letter and its sign, or nothing. -/
inductive Exponent : List UInt8 → Prop where
  | nil : Exponent []
  | digits {letter : UInt8} {sign s : List UInt8} (hletter : letter = byte 'e' ∨ letter = byte 'E')
      (hsign : sign = [] ∨ sign = [byte '+'] ∨ sign = [byte '-']) (h : Digits s) :
      Exponent (letter :: (sign ++ s))

/-- A value that is neither an array nor an object. -/
inductive Word : List UInt8 → Prop where
  | null : Word [byte 'n', byte 'u', byte 'l', byte 'l']
  | yes : Word [byte 't', byte 'r', byte 'u', byte 'e']
  | no : Word [byte 'f', byte 'a', byte 'l', byte 's', byte 'e']
  | text {s : List UInt8} (h : Quoted s) : Word (byte '"' :: (s ++ [byte '"']))
  | number {whole fraction exponent : List UInt8} (hwhole : Whole whole)
      (hfraction : Fraction fraction) (hexponent : Exponent exponent) :
      Word (whole ++ (fraction ++ exponent))
  | negative {whole fraction exponent : List UInt8} (hwhole : Whole whole)
      (hfraction : Fraction fraction) (hexponent : Exponent exponent) :
      Word (byte '-' :: (whole ++ (fraction ++ exponent)))

/-! ## Arrays and objects -/

/-- Some parts with a comma before each of them. -/
def afterCommas (parts : List (List UInt8)) : List UInt8 :=
  parts.flatMap fun part => byte ',' :: part

/-- Some parts with commas between them. -/
def joined : List (List UInt8) → List UInt8
  | [] => []
  | first :: more => first ++ afterCommas more

theorem afterCommas_cons (part : List UInt8) (parts : List (List UInt8)) (rest : List UInt8) :
    afterCommas (part :: parts) ++ rest = byte ',' :: (part ++ (afterCommas parts ++ rest)) := by
  rw [afterCommas, List.flatMap_cons, List.cons_append, List.cons_append, List.append_assoc]
  rfl

/-- The name of a member, between white space. -/
inductive Name : List UInt8 → Prop where
  | quoted {before s after : List UInt8} (hbefore : Blank before) (h : Quoted s)
      (hafter : Blank after) : Name (before ++ byte '"' :: (s ++ byte '"' :: after))

/-- A member with its name and its value. -/
def member (entry : List UInt8 × List UInt8) : List UInt8 :=
  entry.1 ++ byte ':' :: entry.2

/-- A value between white space. -/
inductive Element : List UInt8 → Prop where
  | word {before word after : List UInt8} (hbefore : Blank before) (hword : Word word)
      (hafter : Blank after) : Element (before ++ (word ++ after))
  | emptyArray {before inside after : List UInt8} (hbefore : Blank before) (hinside : Blank inside)
      (hafter : Blank after) : Element (before ++ byte '[' :: (inside ++ byte ']' :: after))
  | array {before after : List UInt8} {items : List (List UInt8)} (hbefore : Blank before)
      (hsome : items ≠ []) (hitems : ∀ item ∈ items, Element item) (hafter : Blank after) :
      Element (before ++ byte '[' :: (joined items ++ byte ']' :: after))
  | emptyObject {before inside after : List UInt8} (hbefore : Blank before)
      (hinside : Blank inside) (hafter : Blank after) :
      Element (before ++ byte '\x7b' :: (inside ++ byte '\x7d' :: after))
  | object {before after : List UInt8} {entries : List (List UInt8 × List UInt8)}
      (hbefore : Blank before) (hsome : entries ≠ []) (hnames : ∀ entry ∈ entries, Name entry.1)
      (hvalues : ∀ entry ∈ entries, Element entry.2) (hafter : Blank after) :
      Element (before ++ byte '\x7b' :: (joined (entries.map member) ++ byte '\x7d' :: after))

/-! ## What may follow a value -/

/-- What follows a value begins, if there is anything, with white space, a comma, or the end of an
array or object. -/
def Follows (s : List UInt8) : Prop :=
  ∀ b, s.head? = some b → isSpace b = true ∨ b = byte ',' ∨ b = byte ']' ∨ b = byte '\x7d'

theorem follows_cons {b : UInt8} (h : b = byte ',' ∨ b = byte ']' ∨ b = byte '\x7d')
    (s : List UInt8) : Follows (b :: s) := by
  intro c hc
  cases hc
  exact .inr h

theorem Follows.after_blank {gap s : List UInt8} (h : Follows s) (hgap : Blank gap) :
    Follows (gap ++ s) := by
  rcases gap with _ | ⟨b, gap⟩
  · exact h
  · intro c hc
    cases hc
    exact .inl (blank_iff.1 hgap b List.mem_cons_self)

/-- No byte of a number, except for its sign. -/
structure NoNumeral (s : List UInt8) : Prop where
  noDigit : ∀ b, s.head? = some b → isDigit b = false
  noPoint : s.head? ≠ some (byte '.')
  noLetter : ∀ b, s.head? = some b → ¬ (b = byte 'e' ∨ b = byte 'E')

theorem Follows.noNumeral {s : List UInt8} (h : Follows s) : NoNumeral s := by
  have hbyte : ∀ b, s.head? = some b → isDigit b = false ∧ b ≠ byte '.' ∧
      ¬ (b = byte 'e' ∨ b = byte 'E') := by
    intro b hb
    have hcases := h b hb
    simp only [isSpace, Bool.or_eq_true, beq_iff_eq] at hcases
    rcases hcases with (((rfl | rfl) | rfl) | rfl) | rfl | rfl | rfl <;> decide
  exact ⟨fun b hb => (hbyte b hb).1, fun hb => (hbyte _ hb).2.1 rfl, fun b hb => (hbyte b hb).2.2⟩

/-! ## Strings that are read -/

/-- What comes after white space is what comes next. -/
theorem next_of_blank_append {gap : List UInt8} (hgap : Blank gap) {b : UInt8}
    (hb : isSpace b = false) (rest : List UInt8) : next (gap ++ b :: rest) = .ok (b, rest) := by
  have hskip : skipSpace (gap ++ b :: rest) = b :: rest := by
    rw [skipSpace, List.dropWhile_append, ← skipSpace, hgap]
    exact List.dropWhile_cons_of_neg (by simp [hb])
  rw [next, hskip]

/-- The bytes are a string with a text, spelled in any way, between white space. -/
inductive Says : String → List UInt8 → Prop where
  | quoted {text : String} {before s after : List UInt8} (hbefore : Blank before)
      (h : Spells text.toList s) (hafter : Blank after) :
      Says text (before ++ byte '"' :: (s ++ byte '"' :: after))

/-- A name is read, and the white space behind it is left. -/
theorem readName_of_says {name : String} {s : List UInt8} (h : Says name s) (rest : List UInt8) :
    ∃ gap, Blank gap ∧ readName (s ++ rest) = .ok (name, gap ++ rest) := by
  cases h with
  | @quoted before s after hbefore h hafter =>
    have hopen : expect (byte '"') (before ++ byte '"' :: (s ++ byte '"' :: (after ++ rest))) =
        .ok ((), s ++ byte '"' :: (after ++ rest)) :=
      expect_of_next (next_of_blank_append hbefore rfl _)
    refine ⟨after, hafter, ?_⟩
    simp only [List.append_assoc, List.cons_append, readName, hopen]
    exact readString_of_spells h _

/-- A string begins with its quote. -/
theorem Says.next_eq {text : String} {s : List UInt8} (h : Says text s) (rest : List UInt8) :
    ∃ tail, next (s ++ rest) = .ok (byte '"', tail) := by
  cases h with
  | @quoted before s after hbefore _ _ =>
    refine ⟨s ++ byte '"' :: (after ++ rest), ?_⟩
    simp only [List.append_assoc, List.cons_append]
    exact next_of_blank_append hbefore rfl _

/-- What does not begin with a quote says no text. -/
theorem not_says_of_ne {b : UInt8} {before tail : List UInt8} (hbefore : Blank before)
    (hspace : isSpace b = false) (hb : b ≠ byte '"') (text : String) :
    ¬ Says text (before ++ b :: tail) := by
  intro h
  obtain ⟨rest, hnext⟩ := h.next_eq []
  rw [List.append_nil, next_of_blank_append hbefore hspace] at hnext
  cases hnext
  exact hb rfl

/-- A text is read, and the white space behind it is left. -/
theorem readText_of_says {text : String} {s : List UInt8} (h : Says text s) (rest : List UInt8) :
    ∃ gap, Blank gap ∧ readText (s ++ rest) = .ok (text, gap ++ rest) := by
  cases h with
  | @quoted before s after hbefore h hafter =>
    have hopen : next (before ++ byte '"' :: (s ++ byte '"' :: (after ++ rest))) =
        .ok (byte '"', s ++ byte '"' :: (after ++ rest)) :=
      next_of_blank_append hbefore rfl _
    refine ⟨after, hafter, ?_⟩
    simp only [List.append_assoc, List.cons_append, readText, hopen, if_true]
    exact readString_of_spells h _

/-! ## Words that are passed over -/

theorem run_skipStringLoop {s : List UInt8} (h : Quoted s) (rest : List UInt8) :
    skipStringLoop.run () (s ++ byte '"' :: rest) = .ok ((), rest) := by
  induction h with
  | nil => exact Loop.run_of_finish rfl
  | @plain b s hquote hslash hcontrol _ ih =>
    refine (Loop.run_of_again ?_).trans ih
    simp only [skipStringLoop, List.cons_append, skipStringStep, if_neg hquote, if_neg hslash,
      if_neg hcontrol]
  | @short b d s hletter _ ih =>
    refine (Loop.run_of_again ?_).trans ih
    have hnotUnit : b ≠ byte 'u' := by
      rintro rfl
      cases hletter
    have hescape : skipEscape (b :: (s ++ byte '"' :: rest)) = .ok ((), s ++ byte '"' :: rest) := by
      rw [skipEscape, if_neg hnotUnit, hletter]
      rfl
    simp only [skipStringLoop, List.cons_append, skipStringStep, hescape]
    rfl
  | @unit a b c d n s hunit _ ih =>
    refine (Loop.run_of_again ?_).trans ih
    have hescape : skipEscape (byte 'u' :: a :: b :: c :: d :: (s ++ byte '"' :: rest)) =
        .ok ((), s ++ byte '"' :: rest) := by
      simp only [skipEscape, readUnit, hunit, if_true, Except.map]
    simp only [skipStringLoop, List.cons_append, skipStringStep, hescape]
    rfl

theorem skipString_of_quoted {s : List UInt8} (h : Quoted s) (rest : List UInt8) :
    skipString (s ++ byte '"' :: rest) = .ok ((), rest) :=
  run_skipStringLoop h rest

theorem scanDigits_of_digits (atEnd : Stop) {s rest : List UInt8} (h : Digits s)
    (hrest : ∀ b, rest.head? = some b → isDigit b = false) :
    scanDigits atEnd (s ++ rest) = .ok (s, rest) := by
  have htake : rest.takeWhile isDigit = [] := by
    rcases rest with _ | ⟨c, rest⟩
    · rfl
    · exact List.takeWhile_cons_of_neg (by simp [hrest c rfl])
  have hdrop : rest.dropWhile isDigit = rest := by
    rcases rest with _ | ⟨c, rest⟩
    · rfl
    · exact List.dropWhile_cons_of_neg (by simp [hrest c rfl])
  rcases s with _ | ⟨b, s⟩
  · exact absurd rfl h.ne_nil
  · have hall : ∀ c ∈ s, isDigit c = true := fun c hc => h.isDigit c (List.mem_cons_of_mem _ hc)
    rw [List.cons_append, scanDigits, if_pos (h.isDigit b List.mem_cons_self), takeDigits,
      List.takeWhile_append_of_pos hall, List.dropWhile_append_of_pos hall, htake, hdrop,
      List.append_nil]

/-- A number whose first digits are followed by no digit. -/
theorem scanWhole_of_whole (atEnd : Stop) {s rest : List UInt8} (h : Whole s)
    (hrest : ∀ b, rest.head? = some b → isDigit b = false) :
    scanWhole atEnd (s ++ rest) = .ok (s, rest) := by
  cases h with
  | zero =>
    rcases rest with _ | ⟨c, rest⟩
    · rfl
    · have hdigit : isDigit c = false := hrest c rfl
      simp only [List.singleton_append, scanWhole, if_true, hdigit, Bool.false_eq_true, if_false]
  | @digits b s hzero h =>
    have hscan : scanWhole atEnd (b :: (s ++ rest)) = scanDigits atEnd (b :: (s ++ rest)) :=
      if_neg hzero
    rw [List.cons_append, hscan]
    exact scanDigits_of_digits atEnd h hrest

/-- The digits after a point. -/
def fractionDigits? : List UInt8 → Option (List UInt8)
  | [] => none
  | _ :: digits => some digits

/-- The sign and the digits after the letter of an exponent. -/
def power? : List UInt8 → Option (Bool × List UInt8)
  | [] => none
  | _ :: power => some (scanSign power)

/-- The parts of a number that is put together from its digits, its fraction and its exponent. -/
def numeralOf (whole fraction exponent : List UInt8) : Numeral :=
  ⟨whole, fractionDigits? fraction, power? exponent⟩

theorem scanFraction_of_fraction (atEnd : Stop) {s rest : List UInt8} (h : Fraction s)
    (hdigit : ∀ b, rest.head? = some b → isDigit b = false)
    (hpoint : rest.head? ≠ some (byte '.')) :
    scanFraction atEnd (s ++ rest) = .ok (fractionDigits? s, rest) := by
  cases h with
  | nil =>
    rcases rest with _ | ⟨c, rest⟩
    · rfl
    · have hc : c ≠ byte '.' := fun heq => hpoint (heq ▸ rfl)
      exact if_neg hc
  | @digits s h =>
    rw [List.cons_append, scanFraction, if_pos rfl, scanDigits_of_digits atEnd h hdigit]
    rfl

/-- The digits of an exponent come behind its sign. -/
theorem scanSign_append {sign s : List UInt8}
    (hsign : sign = [] ∨ sign = [byte '+'] ∨ sign = [byte '-']) (h : Digits s)
    (rest : List UInt8) :
    (scanSign (sign ++ s)).2 = s ∧
      scanSign (sign ++ (s ++ rest)) = ((scanSign (sign ++ s)).1, s ++ rest) := by
  rcases hsign with rfl | rfl | rfl
  · rcases s with _ | ⟨b, s⟩
    · exact absurd rfl h.ne_nil
    · have hdigit : isDigit b = true := h.isDigit b List.mem_cons_self
      have hminus : b ≠ byte '-' := by
        rintro rfl
        cases hdigit
      have hplus : b ≠ byte '+' := by
        rintro rfl
        cases hdigit
      simp only [List.nil_append, List.cons_append, scanSign, if_neg hminus, if_neg hplus,
        and_self]
  · exact ⟨rfl, rfl⟩
  · exact ⟨rfl, rfl⟩

theorem scanExponent_of_exponent (atEnd : Stop) {s rest : List UInt8} (h : Exponent s)
    (hrest : NoNumeral rest) : scanExponent atEnd (s ++ rest) = .ok (power? s, rest) := by
  cases h with
  | nil =>
    rcases rest with _ | ⟨c, rest⟩
    · rfl
    · exact if_neg (hrest.noLetter c rfl)
  | @digits letter sign s hletter hsign h =>
    obtain ⟨halone, hsigned⟩ := scanSign_append hsign h rest
    have hpower : power? (letter :: (sign ++ s)) = some ((scanSign (sign ++ s)).1, s) :=
      congrArg some (Prod.ext rfl halone)
    rw [List.cons_append, List.append_assoc, scanExponent, if_pos hletter, hsigned, hpower]
    simp only [scanDigits_of_digits atEnd h hrest.noDigit, Except.map]

/-- An exponent begins with its letter. -/
theorem Exponent.noFraction {s rest : List UInt8} (h : Exponent s) (hrest : NoNumeral rest) :
    (∀ b, (s ++ rest).head? = some b → isDigit b = false) ∧
      (s ++ rest).head? ≠ some (byte '.') := by
  cases h with
  | nil => exact ⟨hrest.noDigit, hrest.noPoint⟩
  | digits hletter hsign h =>
    rcases hletter with rfl | rfl
    · exact ⟨fun b hb => by cases hb; rfl, by simp⟩
    · exact ⟨fun b hb => by cases hb; rfl, by simp⟩

/-- A fraction begins with its point. -/
theorem Fraction.noDigit {s rest : List UInt8} (h : Fraction s)
    (hrest : ∀ b, rest.head? = some b → isDigit b = false) :
    ∀ b, (s ++ rest).head? = some b → isDigit b = false := by
  cases h with
  | nil => exact hrest
  | digits h =>
    intro b hb
    cases hb
    rfl

/-- A number is scanned into its parts up to what may follow it. -/
theorem scanNumeral_of_number (atEnd : Stop) {whole fraction exponent rest : List UInt8}
    (hwhole : Whole whole) (hfraction : Fraction fraction) (hexponent : Exponent exponent)
    (hrest : Follows rest) :
    scanNumeral atEnd (whole ++ (fraction ++ (exponent ++ rest))) =
      .ok (numeralOf whole fraction exponent, rest) := by
  have hnone := hrest.noNumeral
  obtain ⟨hdigit, hpoint⟩ := hexponent.noFraction hnone
  have hfirst := scanWhole_of_whole atEnd hwhole (hfraction.noDigit hdigit)
  simp only [scanNumeral, hfirst, scanFraction_of_fraction atEnd hfraction hdigit hpoint,
    scanExponent_of_exponent atEnd hexponent hnone, Except.map, numeralOf]

/-- A number is passed over up to what may follow it. -/
theorem skipNumber_of_number {whole fraction exponent rest : List UInt8} (hwhole : Whole whole)
    (hfraction : Fraction fraction) (hexponent : Exponent exponent) (hrest : Follows rest) :
    skipNumber (whole ++ (fraction ++ (exponent ++ rest))) = .ok ((), rest) := by
  simp only [skipNumber, scanNumeral_of_number .malformed hwhole hfraction hexponent hrest,
    Except.map]

/-- The first byte of a number is a digit. -/
theorem Whole.exists_digit {s : List UInt8} (h : Whole s) :
    ∃ b tail, s = b :: tail ∧ isDigit b = true := by
  cases h with
  | zero => exact ⟨byte '0', [], rfl, rfl⟩
  | digits hzero h => exact ⟨_, _, rfl, h.isDigit _ List.mem_cons_self⟩

/-- What a word begins with: neither white space nor a bracket. -/
structure BeginsWord (b : UInt8) : Prop where
  notSpace : isSpace b = false
  notArray : b ≠ byte '['
  notObject : b ≠ byte '\x7b'
  notArrayEnd : b ≠ byte ']'

theorem beginsWord_of_isDigit {b : UInt8} (h : isDigit b = true) : BeginsWord b := by
  constructor
  · rw [Bool.eq_false_iff]
    intro hspace
    simp only [isSpace, Bool.or_eq_true, beq_iff_eq] at hspace
    rcases hspace with ((rfl | rfl) | rfl) | rfl <;> cases h
  all_goals
    rintro rfl
    cases h

/-- A digit begins a number. -/
theorem skipScalar_of_isDigit {b : UInt8} (h : isDigit b = true) (rest : List UInt8) :
    skipScalar b rest = skipNumber (b :: rest) := by
  have hne : ∀ c, isDigit c = false → b ≠ c := by
    rintro c hc rfl
    rw [h] at hc
    cases hc
  rw [skipScalar, if_neg (hne _ rfl), if_neg (hne _ rfl), if_neg (hne _ rfl), if_neg (hne _ rfl),
    if_neg (hne _ rfl), if_pos h]

/-- A word is passed over up to what may follow it. -/
theorem skipScalar_of_word {word : List UInt8} (h : Word word) :
    ∃ b tail, word = b :: tail ∧ BeginsWord b ∧
      ∀ rest, Follows rest → skipScalar b (tail ++ rest) = .ok ((), rest) := by
  cases h with
  | null => exact ⟨_, _, rfl, ⟨rfl, by decide, by decide, by decide⟩, fun rest _ => rfl⟩
  | yes => exact ⟨_, _, rfl, ⟨rfl, by decide, by decide, by decide⟩, fun rest _ => rfl⟩
  | no => exact ⟨_, _, rfl, ⟨rfl, by decide, by decide, by decide⟩, fun rest _ => rfl⟩
  | @text s h =>
    refine ⟨_, _, rfl, ⟨rfl, by decide, by decide, by decide⟩, fun rest _ => ?_⟩
    rw [List.append_assoc]
    exact skipString_of_quoted h rest
  | number hwhole hfraction hexponent =>
    obtain ⟨b, tail, rfl, hdigit⟩ := hwhole.exists_digit
    refine ⟨b, tail ++ (_ ++ _), rfl, beginsWord_of_isDigit hdigit, fun rest hrest => ?_⟩
    rw [skipScalar_of_isDigit hdigit, List.append_assoc, List.append_assoc]
    exact skipNumber_of_number hwhole hfraction hexponent hrest
  | negative hwhole hfraction hexponent =>
    refine ⟨_, _, rfl, ⟨rfl, by decide, by decide, by decide⟩, fun rest hrest => ?_⟩
    rw [List.append_assoc, List.append_assoc]
    exact skipNumber_of_number hwhole hfraction hexponent hrest

end PerfRelay.Json
