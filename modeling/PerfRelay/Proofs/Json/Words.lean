import PerfRelay.Proofs.Json.Outlook

/-!
# The outlook of the readers of words

Strings, literals and numbers, read from any bytes.  A string or literal is settled at its last
byte.  A number that is passed over is never settled at the end of the bytes, and is refused there
if it needs a digit.

Main results:

- Theorems `outlook_readString` and `outlook_skipString`: strings.
- Theorem `outlook_skipScalar`: what is passed over and is neither an array nor an object.
-/

namespace PerfRelay.Json

variable {s : List UInt8}

/-! ## Strings -/

theorem Mode.step_quoted {b : UInt8} (hquote : b ≠ byte '"') (hslash : b ≠ byte '\\') :
    Mode.quoted.step b = .quoted := by
  rw [Mode.step, if_neg hquote, if_neg hslash]

theorem Mode.step_quoted_of_hexDigit {b : UInt8} (h : (hexDigit? b).isSome) :
    Mode.quoted.step b = .quoted := by
  have hquote : b ≠ byte '"' := by
    rintro rfl
    exact absurd h (by decide)
  have hslash : b ≠ byte '\\' := by
    rintro rfl
    exact absurd h (by decide)
  exact step_quoted hquote hslash

theorem Mode.after_quoted_of_hexDigits (h : ∀ b ∈ s, (hexDigit? b).isSome) :
    Mode.quoted.after s = .quoted := by
  induction s with
  | nil => rfl
  | cons b s ih =>
    rw [after_cons, step_quoted_of_hexDigit (h b (List.mem_cons_self ..))]
    exact ih fun c hc => h c (List.mem_cons_of_mem b hc)

theorem hexUnit?_eq_none {a b c d x : UInt8} (hx : x ∈ [a, b, c, d]) (h : hexDigit? x = none) :
    hexUnit? a b c d = none := by
  unfold hexUnit?
  simp only [List.mem_cons, List.not_mem_nil, or_false] at hx
  rcases hx with rfl | rfl | rfl | rfl
  · simp [h]
  · cases hexDigit? a <;> simp [h]
  · cases hexDigit? a <;> cases hexDigit? b <;> simp [h]
  · cases hexDigit? a <;> cases hexDigit? b <;> cases hexDigit? c <;> simp [h]

/-- A byte among the first four that is no digit cannot be put right. -/
theorem readUnit_error {x : UInt8} (hx : x ∈ s.take 4) (h : hexDigit? x = none) :
    ∃ e, readUnit s = .error e := by
  unfold readUnit
  split
  · rename_i a b c d rest
    rw [hexUnit?_eq_none hx h]
    exact ⟨_, rfl⟩
  · exact ⟨_, rfl⟩

theorem outlook_readUnit : Outlook id readUnit (.fixed .quoted) .quoted s := by
  by_cases hdigits : ∀ b ∈ s.take 4, (hexDigit? b).isSome
  · have hmode : Mode.quoted.after (s.take 4) = .quoted := Mode.after_quoted_of_hexDigits hdigits
    rcases s with _ | ⟨a, _ | ⟨b, _ | ⟨c, _ | ⟨d, rest⟩⟩⟩⟩
    case cons.cons.cons.cons =>
      cases hunit : hexUnit? a b c d with
      | none => exact .refused fun t => ⟨.malformed, by simp [readUnit, hunit]⟩
      | some n => exact .settled (a := n) [a, b, c, d] rest rfl (by simp [readUnit, hunit]) hmode
    all_goals
      refine .needsMore (e := .endOfInput) rfl rfl fun hdangling => ?_
      exact absurd (hmode.symm.trans hdangling) (by simp)
  · simp only [not_forall] at hdigits
    obtain ⟨b, hb, hnone⟩ := hdigits
    refine .refused fun t => readUnit_error ?_ (Option.not_isSome_iff_eq_none.1 hnone)
    rw [List.take_append]
    exact List.mem_append_left _ hb

theorem outlook_readSecondHalf (high : Nat) :
    Outlook id (readSecondHalf high) (.fixed .quoted) .quoted s := by
  rcases s with _ | ⟨a, rest⟩
  · exact .needsMore (e := .endOfInput) rfl rfl (by simp)
  · by_cases ha : a = byte '\\'
    · subst ha
      rcases rest with _ | ⟨b, rest⟩
      · exact .needsMore (e := .endOfInput) rfl rfl (by decide)
      · by_cases hb : b = byte 'u'
        · subst hb
          refine Outlook.advance [byte '\\', byte 'u']
            (fun s => readSecondHalf high (byte '\\' :: byte 'u' :: s)) ?_ fun t => rfl
          refine outlook_readUnit.bind id
            (fun low rest =>
              if 0xdc00 ≤ low ∧ low ≤ 0xdfff then
                .ok (0x10000 + (high - 0xd800) * 0x400 + (low - 0xdc00), rest)
              else .error .malformed)
            (fun _ => rfl) (fun hread => by simp [readSecondHalf, hread])
            (fun hread => by simp [readSecondHalf, hread]) (fun {low m _} hm => ?_) fun h => h.elim
          by_cases hlow : 0xdc00 ≤ low ∧ low ≤ 0xdfff
          · exact .pure (a := 0x10000 + (high - 0xd800) * 0x400 + (low - 0xdc00))
              (fun _ => if_pos hlow) hm
          · exact .refused fun t => ⟨_, if_neg hlow⟩
        · exact .refused fun t => ⟨.malformed, if_pos hb⟩
    · exact .refused fun t => ⟨.malformed, if_pos ha⟩

theorem outlook_readCodePoint : Outlook id readCodePoint (.fixed .quoted) .quoted s := by
  refine outlook_readUnit.bind id
    (fun n rest =>
      if 0xdc00 ≤ n ∧ n ≤ 0xdfff then .error .malformed
      else if 0xd800 ≤ n ∧ n ≤ 0xdbff then readSecondHalf n rest
      else .ok (n, rest))
    (fun _ => rfl) (fun hread => by simp [readCodePoint, hread])
    (fun hread => by simp [readCodePoint, hread]) (fun {n m rest} hm => ?_) fun h => h.elim
  obtain rfl : m = .quoted := hm
  by_cases hlow : 0xdc00 ≤ n ∧ n ≤ 0xdfff
  · exact .refused fun t => ⟨_, if_pos hlow⟩
  · by_cases hhigh : 0xd800 ≤ n ∧ n ≤ 0xdbff
    · simp only [hlow, if_false, hhigh, and_self, if_true]
      exact outlook_readSecondHalf n
    · exact .pure (a := n) (fun _ => by simp [hlow, hhigh]) rfl

theorem outlook_readEscape : Outlook id readEscape (.fixed .quoted) .escaped s := by
  rcases s with _ | ⟨b, rest⟩
  · exact .needsMore (e := .endOfInput) rfl rfl (by simp)
  · by_cases hb : b = byte 'u'
    · subst hb
      refine Outlook.advance [byte 'u'] (fun s => readEscape (byte 'u' :: s)) ?_ fun t => rfl
      refine outlook_readCodePoint.bind id (fun n rest => .ok (Utf8.encodeCodePoint n, rest))
        (fun _ => rfl) (fun hread => by simp [readEscape, hread])
        (fun hread => by simp [readEscape, hread]) (fun hm => ?_) fun h => h.elim
      exact .pure (fun _ => rfl) hm
    · cases hshort : shortEscape? b with
      | none =>
        apply Outlook.refused
        intro t
        refine ⟨.malformed, ?_⟩
        rw [List.cons_append, readEscape, if_neg hb, hshort]
      | some c =>
        refine .settled (a := [c]) [b] rest rfl (fun t => ?_) rfl
        rw [List.cons_append, readEscape, if_neg hb, hshort]

theorem outlook_closeString (seen : List UInt8) :
    Outlook id (closeString seen) (.fixed .plain) .plain s := by
  cases hdecode : Utf8.decode? seen.reverse with
  | none => exact .refused fun t => ⟨.malformed, by simp [closeString, hdecode]⟩
  | some text => exact .pure (a := text) (fun _ => by simp [closeString, hdecode]) rfl

/-- How the steps of a string leave the bytes. -/
def stringEnding {σ α : Type} : Ending (Turn σ α) :=
  Outlook.turnEnding (fun _ => (· = .quoted)) False (.fixed .plain)

theorem outlook_stringStep (seen : List UInt8) :
    Outlook id (stringStep seen) stringEnding .quoted s := by
  rcases s with _ | ⟨b, rest⟩
  · exact .needsMore (e := .endOfInput) rfl rfl (by simp)
  · by_cases hquote : b = byte '"'
    · subst hquote
      refine Outlook.advance [byte '"'] (fun s => stringStep seen (byte '"' :: s)) ?_ fun t => rfl
      exact (outlook_closeString seen).map Turn.finish (fun s => rfl) id False.elim
    · by_cases hslash : b = byte '\\'
      · subst hslash
        refine Outlook.advance [byte '\\'] (fun s => stringStep seen (byte '\\' :: s)) ?_
          fun t => rfl
        exact outlook_readEscape.map (fun bytes => Turn.again (bytes.reverse ++ seen))
          (fun s => rfl) id False.elim
      · by_cases hcontrol : b < 0x20
        · apply Outlook.refused
          intro t
          refine ⟨.malformed, ?_⟩
          rw [List.cons_append, stringStep, if_neg hquote, if_neg hslash, if_pos hcontrol]
        · refine .settled (a := .again (b :: seen)) [b] rest rfl (fun t => ?_)
            (Mode.step_quoted hquote hslash)
          rw [List.cons_append, stringStep, if_neg hquote, if_neg hslash, if_neg hcontrol]

/-- The rest of a string, its opening quote gone. -/
theorem outlook_readString : Outlook id readString (.fixed .plain) .quoted s := by
  refine Outlook.run (fun _ => (· = .quoted)) False (fun {seen m} s hm => ?_) False.elim rfl
  obtain rfl : m = .quoted := hm
  exact outlook_stringStep seen

theorem outlook_skipEscape : Outlook id skipEscape (.fixed .quoted) .escaped s := by
  rcases s with _ | ⟨b, rest⟩
  · exact .needsMore (e := .endOfInput) rfl rfl (by simp)
  · by_cases hb : b = byte 'u'
    · subst hb
      refine Outlook.advance [byte 'u'] (fun s => skipEscape (byte 'u' :: s)) ?_ fun t => rfl
      exact outlook_readUnit.map (fun _ => ()) (fun s => rfl) id id
    · cases hshort : shortEscape? b with
      | none =>
        apply Outlook.refused
        intro t
        refine ⟨.malformed, ?_⟩
        rw [List.cons_append, skipEscape, if_neg hb, hshort]
        rfl
      | some c =>
        refine .settled (a := ()) [b] rest rfl (fun t => ?_) rfl
        rw [List.cons_append, skipEscape, if_neg hb, hshort]
        rfl

theorem outlook_skipStringStep (u : Unit) :
    Outlook id (skipStringStep u) stringEnding .quoted s := by
  rcases s with _ | ⟨b, rest⟩
  · exact .needsMore (e := .endOfInput) rfl rfl (by simp)
  · by_cases hquote : b = byte '"'
    · subst hquote
      exact .settled (a := .finish ()) [byte '"'] rest rfl (fun t => rfl) rfl
    · by_cases hslash : b = byte '\\'
      · subst hslash
        refine Outlook.advance [byte '\\'] (fun s => skipStringStep u (byte '\\' :: s)) ?_
          fun t => rfl
        exact outlook_skipEscape.map (fun _ => Turn.again ()) (fun s => rfl) id False.elim
      · by_cases hcontrol : b < 0x20
        · apply Outlook.refused
          intro t
          refine ⟨.malformed, ?_⟩
          rw [List.cons_append, skipStringStep, if_neg hquote, if_neg hslash, if_pos hcontrol]
        · refine .settled (a := .again ()) [b] rest rfl (fun t => ?_)
            (Mode.step_quoted hquote hslash)
          rw [List.cons_append, skipStringStep, if_neg hquote, if_neg hslash, if_neg hcontrol]

/-- The rest of a string that is passed over, its opening quote gone. -/
theorem outlook_skipString : Outlook id skipString (.fixed .plain) .quoted s := by
  refine Outlook.run (fun _ => (· = .quoted)) False (fun {u m} s hm => ?_) False.elim rfl
  obtain rfl : m = .quoted := hm
  exact outlook_skipStringStep u

/-! ## Literals -/

/-- The letters of a literal do not begin another word. -/
theorem outlook_readLiteral {letters : List UInt8}
    (hletters : letters.all (Mode.plain.step · = .plain) = true) :
    Outlook id (readLiteral letters) (.fixed .plain) .plain s := by
  rw [List.all_eq_true] at hletters
  induction letters generalizing s with
  | nil => exact .pure (a := ()) (fun _ => rfl) rfl
  | cons letter letters ih =>
    rcases s with _ | ⟨b, rest⟩
    · exact .needsMore (e := .endOfInput) rfl rfl (by simp)
    · by_cases hb : b = letter
      · subst hb
        refine Outlook.advance [b] (readLiteral letters) ?_ fun t => if_pos rfl
        have hletter : Mode.plain.step b = .plain :=
          of_decide_eq_true (hletters b (List.mem_cons_self ..))
        rw [Mode.after_cons, Mode.after_nil, hletter]
        exact ih fun c hc => hletters c (List.mem_cons_of_mem b hc)
      · exact .refused fun t => ⟨.malformed, if_neg hb⟩

/-! ## Numbers that are passed over -/

theorem ne_quote_of_isDigit {b : UInt8} (h : isDigit b = true) : b ≠ byte '"' := by
  rintro rfl
  exact absurd h (by decide)

/-- A digit outside of strings belongs to a number. -/
theorem Mode.bareStep_of_isDigit {b : UInt8} (h : isDigit b = true) (inNumber : Bool) :
    bareStep inNumber b = .number := by
  rw [bareStep, if_neg (ne_quote_of_isDigit h), if_pos h]

theorem Mode.after_digits (h : ∀ b ∈ s, isDigit b = true) : Mode.number.after s = .number := by
  induction s with
  | nil => rfl
  | cons b s ih =>
    have hb : Mode.number.step b = .number :=
      bareStep_of_isDigit (h b (List.mem_cons_self ..)) true
    rw [after_cons, hb]
    exact ih fun c hc => h c (List.mem_cons_of_mem b hc)

/-- A part of a number whose last byte may be a digit. -/
def numeralEnding {α : Type} : Ending α := ⟨fun _ => (· = .number), fun _ => True⟩

/-- Digits after the first one go on up to the next byte that is none. -/
theorem outlook_scanDigits_cons {b : UInt8} (hb : isDigit b = true) :
    Outlook id (fun s => scanDigits .malformed (b :: s)) numeralEnding .number s := by
  have hscan : ∀ s, scanDigits .malformed (b :: s) =
      .ok (b :: s.takeWhile isDigit, s.dropWhile isDigit) := fun s => if_pos hb
  have hmode : Mode.number.after (s.takeWhile isDigit) = .number :=
    Mode.after_digits fun c hc => List.mem_takeWhile_imp hc
  have hsplit : s = s.takeWhile isDigit ++ s.dropWhile isDigit :=
    (List.takeWhile_append_dropWhile).symm
  by_cases hend : s.dropWhile isDigit = []
  · exact .unsettled (s.takeWhile isDigit) (s.dropWhile isDigit) hsplit (by rw [hend]; rfl)
      (hscan s) trivial hmode (.inr hmode)
  · refine .settled (a := b :: s.takeWhile isDigit) (s.takeWhile isDigit) (s.dropWhile isDigit)
      hsplit (fun t => ?_) hmode
    have htake : (s ++ t).takeWhile isDigit = s.takeWhile isDigit := by
      rw [List.takeWhile_append, if_neg fun hlength => hend ?_]
      rw [← List.length_eq_zero_iff]
      have := congrArg List.length hsplit
      rw [List.length_append] at this
      omega
    have hdrop : (s ++ t).dropWhile isDigit = s.dropWhile isDigit ++ t := by
      rw [List.dropWhile_append, if_neg (by simpa using hend)]
    rw [hscan, htake, hdrop]

/-- Digits where one is needed. -/
theorem outlook_scanDigits : Outlook id (scanDigits .malformed) numeralEnding .dangling s := by
  rcases s with _ | ⟨b, rest⟩
  · exact .cut (e := .malformed) rfl rfl rfl
  · by_cases hb : isDigit b = true
    · refine Outlook.advance [b] (fun s => scanDigits .malformed (b :: s)) ?_ fun t => rfl
      have hmode : Mode.dangling.after [b] = .number := Mode.bareStep_of_isDigit hb false
      rw [hmode]
      exact outlook_scanDigits_cons hb
    · exact .refused fun t => ⟨.malformed, if_neg hb⟩

theorem outlook_scanWhole_cons {b : UInt8} (hb : isDigit b = true) :
    Outlook id (fun s => scanWhole .malformed (b :: s)) numeralEnding .number s := by
  by_cases hzero : b = byte '0'
  · subst hzero
    rcases s with _ | ⟨c, rest⟩
    · exact .unsettled (a := [byte '0']) [] [] rfl rfl rfl trivial rfl (.inr rfl)
    · by_cases hc : isDigit c = true
      · apply Outlook.refused
        intro t
        refine ⟨.malformed, ?_⟩
        simp only [List.cons_append, scanWhole, if_true, hc]
      · refine .settled (a := [byte '0']) [] (c :: rest) rfl (fun t => ?_) rfl
        simp only [List.cons_append, scanWhole, if_true, hc]
        rfl
  · refine Outlook.advance [] (fun s => scanDigits .malformed (b :: s))
      (outlook_scanDigits_cons hb) fun t => ?_
    exact if_neg hzero

theorem outlook_scanFraction :
    Outlook id (scanFraction .malformed) numeralEnding .number s := by
  rcases s with _ | ⟨b, rest⟩
  · exact .unsettled (a := none) [] [] rfl rfl rfl trivial rfl (.inr rfl)
  · by_cases hb : b = byte '.'
    · subst hb
      refine Outlook.advance [byte '.'] (fun s => scanFraction .malformed (byte '.' :: s)) ?_
        fun t => rfl
      exact outlook_scanDigits.map some (fun s => rfl) id id
    · exact .settled (a := none) [] (b :: rest) rfl (fun t => if_neg hb) rfl

/-- The sign and the digits of an exponent that is passed over, its letter gone. -/
def scanPower (s : List UInt8) : Reading Stop (Option (Bool × List UInt8)) :=
  (scanDigits .malformed (scanSign s).2).map fun (digits, rest) =>
    (some ((scanSign s).1, digits), rest)

theorem outlook_scanPower : Outlook id scanPower numeralEnding .dangling s := by
  rcases s with _ | ⟨b, rest⟩
  · exact .cut (e := .malformed) rfl rfl rfl
  · by_cases hminus : b = byte '-'
    · subst hminus
      refine Outlook.advance [byte '-'] (fun s => (scanDigits .malformed s).map
        fun (digits, rest) => (some (true, digits), rest)) ?_ fun t => rfl
      exact outlook_scanDigits.map (fun digits => some (true, digits)) (fun s => rfl) id id
    · by_cases hplus : b = byte '+'
      · subst hplus
        refine Outlook.advance [byte '+'] (fun s => (scanDigits .malformed s).map
          fun (digits, rest) => (some (false, digits), rest)) ?_ fun t => rfl
        exact outlook_scanDigits.map (fun digits => some (false, digits)) (fun s => rfl) id id
      · refine Outlook.advance [] (fun s => (scanDigits .malformed s).map fun (digits, rest) =>
          (some (false, digits), rest)) ?_ fun t => ?_
        · exact outlook_scanDigits.map (fun digits => some (false, digits)) (fun s => rfl) id id
        · have hsign : scanSign (b :: rest ++ t) = (false, b :: rest ++ t) := by
            rw [List.cons_append, scanSign, if_neg hminus, if_neg hplus]
          rw [List.nil_append, scanPower, hsign]

theorem outlook_scanExponent :
    Outlook id (scanExponent .malformed) numeralEnding .number s := by
  rcases s with _ | ⟨b, rest⟩
  · exact .unsettled (a := none) [] [] rfl rfl rfl trivial rfl (.inr rfl)
  · by_cases hb : b = byte 'e' ∨ b = byte 'E'
    · refine Outlook.advance [b] scanPower ?_ fun t => if_pos hb
      have hmode : Mode.number.after [b] = .dangling := by
        rcases hb with rfl | rfl <;> rfl
      rw [hmode]
      exact outlook_scanPower
    · exact .settled (a := none) [] (b :: rest) rfl (fun t => if_neg hb) rfl

theorem scanFraction_of_blank (atEnd : Stop) (h : Blank s) :
    scanFraction atEnd s = .ok (none, s) := by
  rcases s with _ | ⟨b, rest⟩
  · rfl
  · have hspace : isSpace b = true := blank_iff.1 h b (List.mem_cons_self ..)
    refine if_neg ?_
    rintro rfl
    exact absurd hspace (by decide)

theorem scanExponent_of_blank (atEnd : Stop) (h : Blank s) :
    scanExponent atEnd s = .ok (none, s) := by
  rcases s with _ | ⟨b, rest⟩
  · rfl
  · have hspace : isSpace b = true := blank_iff.1 h b (List.mem_cons_self ..)
    refine if_neg ?_
    rintro (rfl | rfl)
    · exact absurd hspace (by decide)
    · exact absurd hspace (by decide)

/-- The fraction and the exponent of a number. -/
def scanParts (whole s : List UInt8) : Reading Stop Numeral :=
  match scanFraction .malformed s with
  | .error stop => .error stop
  | .ok (fraction, s) =>
    (scanExponent .malformed s).map fun (exponent, s) => (⟨whole, fraction, exponent⟩, s)

theorem outlook_scanParts (whole : List UInt8) :
    Outlook id (scanParts whole) numeralEnding .number s := by
  refine outlook_scanFraction.bind id
    (fun fraction s => (scanExponent .malformed s).map fun (exponent, s) =>
      (⟨whole, fraction, exponent⟩, s))
    (fun _ => rfl) (fun hread => by rw [scanParts, hread]; rfl)
    (fun hread => by rw [scanParts, hread]) (fun {fraction m rest} hm => ?_)
    fun {fraction rest} _ hrest => ?_
  · obtain rfl : m = .number := hm
    exact outlook_scanExponent.map (fun exponent => ⟨whole, fraction, exponent⟩) (fun s => rfl)
      id id
  · rw [Idle, scanExponent_of_blank _ hrest]
    exact .inr ⟨_, _, rfl, hrest, trivial⟩

/-- A number after its first digit. -/
theorem outlook_scanNumeral_cons {b : UInt8} (hb : isDigit b = true) :
    Outlook id (fun s => scanNumeral .malformed (b :: s)) numeralEnding .number s := by
  refine (outlook_scanWhole_cons hb).bind id scanParts (fun _ => rfl)
    (fun hread => by rw [scanNumeral, hread]; rfl) (fun hread => by rw [scanNumeral, hread]; rfl)
    (fun {whole m rest} hm => ?_) fun {whole rest} _ hrest => ?_
  · obtain rfl : m = .number := hm
    exact outlook_scanParts whole
  · rw [Idle, scanParts, scanFraction_of_blank _ hrest]
    simp only [scanExponent_of_blank _ hrest]
    exact .inr ⟨_, _, rfl, hrest, trivial⟩

/-- The ending of a part of a number is one that may grow. -/
theorem growing_of_numeralEnding {α : Type} {a : α} {m : Mode} (h : numeralEnding.modes a m) :
    Mode.AtRest m :=
  .inr h

/-- A number that is passed over, after its first digit. -/
theorem outlook_skipNumber_cons {b : UInt8} (hb : isDigit b = true) :
    Outlook id (fun s => skipNumber (b :: s)) .growing .number s :=
  (outlook_scanNumeral_cons hb).map (fun _ => ()) (fun _ => rfl) growing_of_numeralEnding id

/-- A number that is passed over, after its sign. -/
theorem outlook_skipNumber : Outlook id skipNumber .growing .dangling s := by
  rcases s with _ | ⟨b, rest⟩
  · exact .cut (e := .malformed) rfl rfl rfl
  · by_cases hb : isDigit b = true
    · refine Outlook.advance [b] (fun s => skipNumber (b :: s)) ?_ fun t => rfl
      have hmode : Mode.dangling.after [b] = .number := Mode.bareStep_of_isDigit hb false
      rw [hmode]
      exact outlook_skipNumber_cons hb
    · have hzero : b ≠ byte '0' := by
        rintro rfl
        exact hb rfl
      apply Outlook.refused
      intro t
      refine ⟨.malformed, ?_⟩
      have hwhole : scanWhole .malformed (b :: (rest ++ t)) = .error .malformed :=
        (if_neg hzero).trans (if_neg hb)
      rw [List.cons_append, skipNumber, scanNumeral, hwhole]
      rfl

/-! ## Values without parts -/

/-- What is passed over and is neither an array nor an object, after its first byte. -/
theorem outlook_skipScalar (b : UInt8) {mode : Mode} (hmode : mode.AtRest) :
    Outlook id (skipScalar b) .growing (mode.step b) s := by
  have hword : ∀ {first : UInt8} {letters : List UInt8},
      (∀ inNumber, Mode.bareStep inNumber first = .plain) →
      letters.all (Mode.plain.step · = .plain) = true →
      Outlook id (readLiteral letters) .growing (mode.step first) s := by
    intro first letters hfirst hletters
    rw [hmode.step hfirst]
    exact (outlook_readLiteral hletters).weaken .inl False.elim
  by_cases hn : b = byte 'n'
  · subst hn
    exact hword (by decide) rfl
  by_cases ht : b = byte 't'
  · subst ht
    exact hword (by decide) rfl
  by_cases hf : b = byte 'f'
  · subst hf
    exact hword (by decide) rfl
  by_cases hquote : b = byte '"'
  · subst hquote
    rw [hmode.step Mode.bareStep_quote]
    exact outlook_skipString.weaken .inl False.elim
  by_cases hminus : b = byte '-'
  · subst hminus
    rw [hmode.step (m := .dangling) (by decide)]
    exact outlook_skipNumber
  by_cases hdigit : isDigit b = true
  · rw [hmode.step (Mode.bareStep_of_isDigit hdigit)]
    refine Outlook.advance [] (fun s => skipNumber (b :: s)) (outlook_skipNumber_cons hdigit)
      fun t => ?_
    rw [skipScalar, if_neg hn, if_neg ht, if_neg hf, if_neg hquote, if_neg hminus, if_pos hdigit]
    rfl
  · apply Outlook.refused
    intro t
    refine ⟨.malformed, ?_⟩
    rw [skipScalar, if_neg hn, if_neg ht, if_neg hf, if_neg hquote, if_neg hminus, if_neg hdigit]

end PerfRelay.Json
