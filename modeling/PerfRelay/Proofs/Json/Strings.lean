import PerfRelay.Json.Printer
import PerfRelay.Proofs.Json.Words

/-!
# Texts between quotes

A text can be written as a JSON string in many ways: a character stands for itself or is given by an
escape, and characters beyond the first 65536 code points by two of them.  Whichever way is chosen,
the text is read back, and wherever the bytes are cut before the closing quote they stop in a
string.

Main results:

- Theorem `readString_of_spells`: a text that is spelled in any way is read back.
- Theorem `Spells.carries`: a text that is cut in its spelling stops in a string.
- Theorem `spells_escape`: what is printed is a spelling.
-/

namespace PerfRelay

theorem Utf8.encode_ofList (chars : List Char) :
    Utf8.encode (String.ofList chars) = chars.flatMap String.utf8EncodeChar := by
  rw [Utf8.encode, String.toByteArray_ofList, List.utf8Encode, List.data_toByteArray]

/-- A byte of a character is its number, or one that no character below `0x80` has. -/
theorem Utf8.toNat_of_mem_encodeChar {c : Char} {b : UInt8} (h : b ∈ String.utf8EncodeChar c) :
    b.toNat = c.toNat ∨ 0x80 ≤ b.toNat := by
  have hhigh : ∀ n, 0x80 ≤ n → n < 0x100 → 0x80 ≤ (UInt8.ofNat n).toNat := by
    intro n hlow hhigh
    rw [UInt8.toNat_ofNat', Nat.mod_eq_of_lt hhigh]
    exact hlow
  rw [String.utf8EncodeChar] at h
  split at h
  · rw [List.mem_singleton] at h
    rw [h, UInt8.toNat_ofNat']
    exact .inl (Nat.mod_eq_of_lt (by omega))
  · refine .inr ?_
    split at h
    · simp only [List.mem_cons, List.not_mem_nil, or_false] at h
      rcases h with rfl | rfl <;> exact hhigh _ (by omega) (by omega)
    · split at h
      · simp only [List.mem_cons, List.not_mem_nil, or_false] at h
        rcases h with rfl | rfl | rfl <;> exact hhigh _ (by omega) (by omega)
      · simp only [List.mem_cons, List.not_mem_nil, or_false] at h
        rcases h with rfl | rfl | rfl | rfl <;> exact hhigh _ (by omega) (by omega)

/-- A character below `0x80` that is found in the bytes of a text is in the text. -/
theorem Utf8.mem_toList_of_mem_encode {text : String} {mark : Char} (hlow : mark.toNat < 0x80)
    (h : mark.toNat.toUInt8 ∈ Utf8.encode text) : mark ∈ text.toList := by
  have hvalue : mark.toNat.toUInt8.toNat = mark.toNat := Nat.mod_eq_of_lt (by omega)
  rw [← String.ofList_toList (s := text), Utf8.encode_ofList, List.mem_flatMap] at h
  obtain ⟨c, hc, hb⟩ := h
  rcases Utf8.toNat_of_mem_encodeChar hb with hself | hhigh
  · rw [hvalue] at hself
    rwa [Char.toNat_inj.1 hself]
  · omega

namespace Json

/-! ## Cutting a text -/

namespace Mode

/-- Wherever the bytes are cut, they do not stop in a number that needs a digit. -/
def isCalm (mode : Mode) : List UInt8 → Bool
  | [] => mode != .dangling
  | b :: s => mode != .dangling && isCalm (mode.step b) s

/-- The bytes lead from one place to another one, and stop in no number that needs a digit. -/
structure Carries (mode : Mode) (s : List UInt8) (next : Mode) : Prop where
  after_eq : mode.after s = next
  isCalm_eq : mode.isCalm s = true

theorem isCalm_append {mode : Mode} {s t : List UInt8} (hs : mode.isCalm s = true)
    (ht : (mode.after s).isCalm t = true) : mode.isCalm (s ++ t) = true := by
  induction s generalizing mode with
  | nil => exact ht
  | cons b s ih =>
    rw [isCalm, Bool.and_eq_true] at hs
    rw [List.cons_append, isCalm, Bool.and_eq_true]
    exact ⟨hs.1, ih hs.2 ht⟩

theorem Carries.append {mode next last : Mode} {s t : List UInt8} (hs : mode.Carries s next)
    (ht : next.Carries t last) : mode.Carries (s ++ t) last := by
  obtain ⟨rfl, hcalm⟩ := hs
  obtain ⟨rfl, hcalm'⟩ := ht
  exact ⟨after_append mode s t, isCalm_append hcalm hcalm'⟩

/-- A beginning of the bytes does not stop in a number that needs a digit. -/
theorem Carries.after_ne_dangling {mode next : Mode} {s t : List UInt8}
    (h : mode.Carries (s ++ t) next) : mode.after s ≠ .dangling := by
  have hcalm := h.isCalm_eq
  clear h
  induction s generalizing mode with
  | nil =>
    rintro rfl
    cases t <;> cases hcalm
  | cons b s ih =>
    rw [List.cons_append, isCalm, Bool.and_eq_true] at hcalm
    exact ih hcalm.2

/-- Bytes that are neither a quote nor a backslash stay in a string. -/
theorem carries_quoted {s : List UInt8} (h : ∀ b ∈ s, b ≠ byte '"' ∧ b ≠ byte '\\') :
    Mode.quoted.Carries s .quoted := by
  induction s with
  | nil => exact ⟨rfl, rfl⟩
  | cons b s ih =>
    have hb : b ≠ byte '"' ∧ b ≠ byte '\\' := h b (List.mem_cons_self ..)
    obtain ⟨hafter, hcalm⟩ := ih fun c hc => h c (List.mem_cons_of_mem b hc)
    have hstep : Mode.quoted.step b = .quoted := step_quoted hb.1 hb.2
    exact ⟨by rw [after_cons, hstep, hafter], by rw [isCalm, hstep, hcalm]; rfl⟩

end Mode

/-! ## Spellings -/

/-- The bytes of an escape, its backslash gone, that stands for a character. -/
inductive Escapes : Char → List UInt8 → Prop where
  /-- One letter. -/
  | short {b d : UInt8} (h : shortEscape? b = some d) : Escapes (Char.ofNat d.toNat) [b]
  /-- The number of a code point. -/
  | unit {a b c d : UInt8} {n : Nat} (h : hexUnit? a b c d = some n)
      (hlow : ¬ (0xdc00 ≤ n ∧ n ≤ 0xdfff)) (hhigh : ¬ (0xd800 ≤ n ∧ n ≤ 0xdbff)) :
      Escapes (Char.ofNat n) [byte 'u', a, b, c, d]
  /-- The two halves of a code point. -/
  | pair {a b c d a' b' c' d' : UInt8} {high low : Nat} (h : hexUnit? a b c d = some high)
      (h' : hexUnit? a' b' c' d' = some low) (hhigh : 0xd800 ≤ high ∧ high ≤ 0xdbff)
      (hlow : 0xdc00 ≤ low ∧ low ≤ 0xdfff) :
      Escapes (Char.ofNat (0x10000 + (high - 0xd800) * 0x400 + (low - 0xdc00)))
        [byte 'u', a, b, c, d, byte '\\', byte 'u', a', b', c', d']

/-- The bytes between quotes that stand for some characters. -/
inductive Spells : List Char → List UInt8 → Prop where
  | nil : Spells [] []
  /-- A character stands for itself. -/
  | plain {c : Char} {chars : List Char} {s : List UInt8} (hquote : c ≠ '"') (hslash : c ≠ '\\')
      (hcontrol : 0x20 ≤ c.toNat) (h : Spells chars s) :
      Spells (c :: chars) (String.utf8EncodeChar c ++ s)
  /-- A character is given by an escape. -/
  | escaped {c : Char} {tail : List UInt8} {chars : List Char} {s : List UInt8}
      (hescape : Escapes c tail) (h : Spells chars s) :
      Spells (c :: chars) (byte '\\' :: (tail ++ s))

/-! ## Escapes -/

theorem hexDigit?_of_hexUnit? {a b c d : UInt8} {n : Nat} (h : hexUnit? a b c d = some n) :
    ∀ x ∈ [a, b, c, d], (hexDigit? x).isSome := by
  intro x hx
  by_contra hnone
  rw [Option.not_isSome_iff_eq_none] at hnone
  rw [hexUnit?_eq_none hx hnone] at h
  cases h

/-- The letter of a short escape stands for a single byte. -/
theorem encodeChar_of_shortEscape? {b d : UInt8} (h : shortEscape? b = some d) :
    b ≠ byte 'u' ∧ String.utf8EncodeChar (Char.ofNat d.toNat) = [d] := by
  constructor
  · rintro rfl
    cases h
  · unfold shortEscape? at h
    repeat
      split at h
      · cases h
        decide
    cases h

/-- An escape is read as the character that it stands for. -/
theorem readEscape_of_escapes {c : Char} {tail : List UInt8} (h : Escapes c tail)
    (rest : List UInt8) : readEscape (tail ++ rest) = .ok (String.utf8EncodeChar c, rest) := by
  cases h with
  | short hshort =>
    obtain ⟨hletter, hbyte⟩ := encodeChar_of_shortEscape? hshort
    rw [List.singleton_append, readEscape, if_neg hletter, hshort, hbyte]
  | @unit a b c d n hunit hlow hhigh =>
    have hpoint : readCodePoint (a :: b :: c :: d :: rest) = .ok (n, rest) := by
      simp only [readCodePoint, readUnit, hunit, if_neg hlow, if_neg hhigh]
    simp only [List.cons_append, List.nil_append, readEscape, if_true, hpoint,
      Utf8.encodeCodePoint]
  | @pair a b c d a' b' c' d' high low hunit hunit' hhigh hlow =>
    have hnotLow : ¬ (0xdc00 ≤ high ∧ high ≤ 0xdfff) := by omega
    have hsecond : readSecondHalf high (byte '\\' :: byte 'u' :: a' :: b' :: c' :: d' :: rest) =
        .ok (0x10000 + (high - 0xd800) * 0x400 + (low - 0xdc00), rest) := by
      simp only [readSecondHalf, readUnit, hunit', if_pos hlow, ne_eq, not_true_eq_false, if_false]
    have hpoint : readCodePoint
        (a :: b :: c :: d :: byte '\\' :: byte 'u' :: a' :: b' :: c' :: d' :: rest) =
          .ok (0x10000 + (high - 0xd800) * 0x400 + (low - 0xdc00), rest) := by
      simp only [readCodePoint, readUnit, hunit, if_neg hnotLow, if_pos hhigh, hsecond]
    simp only [List.cons_append, List.nil_append, readEscape, if_true, hpoint,
      Utf8.encodeCodePoint]

theorem Mode.carries_hexUnit {a b c d : UInt8} {n : Nat} (h : hexUnit? a b c d = some n) :
    Mode.quoted.Carries [a, b, c, d] .quoted := by
  apply carries_quoted
  intro x hx
  have hdigit : (hexDigit? x).isSome := hexDigit?_of_hexUnit? h x hx
  constructor
  · rintro rfl
    exact absurd hdigit (by decide)
  · rintro rfl
    exact absurd hdigit (by decide)

/-- An escape leads back into the string. -/
theorem Escapes.carries {c : Char} {tail : List UInt8} (h : Escapes c tail) :
    Mode.escaped.Carries tail .quoted := by
  cases h with
  | short hshort => exact ⟨rfl, rfl⟩
  | unit hunit hlow hhigh =>
    have hletter : Mode.escaped.Carries [byte 'u'] .quoted := ⟨rfl, rfl⟩
    exact hletter.append (Mode.carries_hexUnit hunit)
  | pair hunit hunit' hhigh hlow =>
    have hletter : Mode.escaped.Carries [byte 'u'] .quoted := ⟨rfl, rfl⟩
    have hslash : Mode.quoted.Carries [byte '\\', byte 'u'] .quoted := ⟨rfl, rfl⟩
    exact ((hletter.append (Mode.carries_hexUnit hunit)).append hslash).append
      (Mode.carries_hexUnit hunit')

/-! ## Characters that stand for themselves -/

/-- The bytes of a character that may stand for itself are no quotes, no backslashes and no control
characters. -/
theorem encodeChar_plain {c : Char} (hquote : c ≠ '"') (hslash : c ≠ '\\')
    (hcontrol : 0x20 ≤ c.toNat) :
    ∀ b ∈ String.utf8EncodeChar c, b ≠ byte '"' ∧ b ≠ byte '\\' ∧ ¬ b < 0x20 := by
  intro b hb
  have hmark : ∀ mark : Char, mark.toNat < 0x80 → c ≠ mark → b ≠ byte mark := by
    intro mark hlow hne heq
    have hvalue : (byte mark).toNat = mark.toNat := Nat.mod_eq_of_lt (by omega)
    rcases Utf8.toNat_of_mem_encodeChar hb with hself | hhigh
    · rw [heq, hvalue] at hself
      exact hne (Char.toNat_inj.1 hself.symm)
    · rw [heq, hvalue] at hhigh
      omega
  refine ⟨hmark _ (by decide) hquote, hmark _ (by decide) hslash, fun hlt => ?_⟩
  have hlow : b.toNat < 0x20 := UInt8.lt_iff_toNat_lt.1 hlt
  rcases Utf8.toNat_of_mem_encodeChar hb with hself | hhigh <;> omega

/-- A text that is cut in its spelling stops in a string. -/
theorem Spells.carries {chars : List Char} {s : List UInt8} (h : Spells chars s) :
    Mode.quoted.Carries s .quoted := by
  induction h with
  | nil => exact ⟨rfl, rfl⟩
  | plain hquote hslash hcontrol _ ih =>
    have hchar := encodeChar_plain hquote hslash hcontrol
    exact (Mode.carries_quoted fun b hb => ⟨(hchar b hb).1, (hchar b hb).2.1⟩).append ih
  | escaped hescape _ ih =>
    have hbackslash : Mode.quoted.Carries [byte '\\'] .escaped := ⟨rfl, rfl⟩
    exact hbackslash.append (hescape.carries.append ih)

/-! ## Reading a spelling -/

/-- Bytes that stand for themselves are taken over one by one. -/
theorem run_stringLoop_plain {bytes : List UInt8}
    (h : ∀ b ∈ bytes, b ≠ byte '"' ∧ b ≠ byte '\\' ∧ ¬ b < 0x20) (seen rest : List UInt8) :
    stringLoop.run seen (bytes ++ rest) = stringLoop.run (bytes.reverse ++ seen) rest := by
  induction bytes generalizing seen with
  | nil => rfl
  | cons b bytes ih =>
    obtain ⟨hquote, hslash, hcontrol⟩ := h b (List.mem_cons_self ..)
    have hstep : stringStep seen (b :: (bytes ++ rest)) =
        .ok (.again (b :: seen), bytes ++ rest) := by
      rw [stringStep, if_neg hquote, if_neg hslash, if_neg hcontrol]
    rw [List.cons_append, Loop.run_of_again hstep,
      ih (fun c hc => h c (List.mem_cons_of_mem b hc)), List.reverse_cons, List.append_assoc]
    rfl

/-- The character of an escape is taken over. -/
theorem run_stringLoop_escaped {c : Char} {tail : List UInt8} (h : Escapes c tail)
    (seen rest : List UInt8) :
    stringLoop.run seen (byte '\\' :: (tail ++ rest)) =
      stringLoop.run ((String.utf8EncodeChar c).reverse ++ seen) rest := by
  apply Loop.run_of_again
  simp only [stringLoop]
  rw [stringStep, if_neg (by decide), if_pos rfl, readEscape_of_escapes h]
  rfl

/-- The characters of a spelling are taken over one by one.  The induction is on the spelling. -/
theorem run_stringLoop_spells {chars : List Char} {s : List UInt8} (h : Spells chars s)
    (seen rest : List UInt8) :
    stringLoop.run seen (s ++ rest) =
      stringLoop.run ((chars.flatMap String.utf8EncodeChar).reverse ++ seen) rest := by
  induction h generalizing seen with
  | nil => rfl
  | plain hquote hslash hcontrol _ ih =>
    rw [List.append_assoc, run_stringLoop_plain (encodeChar_plain hquote hslash hcontrol), ih,
      List.flatMap_cons, List.reverse_append, List.append_assoc]
  | escaped hescape _ ih =>
    rw [List.cons_append, List.append_assoc, run_stringLoop_escaped hescape, ih,
      List.flatMap_cons, List.reverse_append, List.append_assoc]

/-- A text that is spelled in any way is read back. -/
theorem readString_of_spells {text : String} {s : List UInt8} (h : Spells text.toList s)
    (rest : List UInt8) : readString (s ++ byte '"' :: rest) = .ok (text, rest) := by
  have hbytes : text.toList.flatMap String.utf8EncodeChar = Utf8.encode text := by
    rw [← Utf8.encode_ofList, String.ofList_toList]
  have hclose : stringStep (Utf8.encode text).reverse (byte '"' :: rest) =
      .ok (.finish text, rest) := by
    rw [stringStep, if_pos rfl, closeString, List.reverse_reverse, Utf8.decode?_encode]
    rfl
  rw [readString, run_stringLoop_spells h, List.append_nil, hbytes, Loop.run_of_finish hclose]

/-! ## What is printed -/

/-- The last two digits of the number of a control character are hexadecimal ones. -/
theorem hexUnit?_control {n : Nat} (h : n < 0x20) :
    hexUnit? (byte '0') (byte '0') (byte (Nat.digitChar (n / 16))) (byte (Nat.digitChar (n % 16))) =
      some n := by
  revert n
  decide

/-- The digits of the number of a control character are single bytes. -/
theorem encodeChar_digitChar {n : Nat} (h : n < 16) :
    String.utf8EncodeChar (Nat.digitChar n) = [byte (Nat.digitChar n)] := by
  revert n
  decide

/-- Control characters are given by a letter or by their number. -/
theorem escapes_control {c : Char} (h : c.toNat < 0x20) :
    ∃ tail, escape c = '\\' :: tail ∧ Escapes c (tail.flatMap String.utf8EncodeChar) := by
  have hquote : c ≠ '"' := by
    rintro rfl
    exact absurd h (by decide)
  have hslash : c ≠ '\\' := by
    rintro rfl
    exact absurd h (by decide)
  rw [escape, if_neg hquote, if_neg hslash, if_pos h]
  generalize hn : c.toNat = n at h
  obtain rfl : Char.ofNat n = c := by rw [← hn, Char.ofNat_toNat]
  split
  · exact ⟨['b'], rfl, Escapes.short (b := byte 'b') (d := 0x08) rfl⟩
  · exact ⟨['t'], rfl, Escapes.short (b := byte 't') (d := 0x09) rfl⟩
  · exact ⟨['n'], rfl, Escapes.short (b := byte 'n') (d := 0x0a) rfl⟩
  · exact ⟨['f'], rfl, Escapes.short (b := byte 'f') (d := 0x0c) rfl⟩
  · exact ⟨['r'], rfl, Escapes.short (b := byte 'r') (d := 0x0d) rfl⟩
  · refine ⟨['u', '0', '0', Nat.digitChar (n / 16), Nat.digitChar (n % 16)], rfl, ?_⟩
    have hbytes : ['u', '0', '0', Nat.digitChar (n / 16), Nat.digitChar (n % 16)].flatMap
        String.utf8EncodeChar = [byte 'u', byte '0', byte '0', byte (Nat.digitChar (n / 16)),
          byte (Nat.digitChar (n % 16))] := by
      simp only [List.flatMap_cons, List.flatMap_nil, encodeChar_digitChar (n := n / 16) (by omega),
        encodeChar_digitChar (n := n % 16) (by omega)]
      rfl
    rw [hbytes]
    exact Escapes.unit (hexUnit?_control h) (by omega) (by omega)

/-- What is printed for some characters is a spelling of them. -/
theorem spells_escape (chars : List Char) :
    Spells chars ((chars.flatMap escape).flatMap String.utf8EncodeChar) := by
  induction chars with
  | nil => exact Spells.nil
  | cons c chars ih =>
    have hbackslash : String.utf8EncodeChar '\\' = [byte '\\'] := by decide
    rw [List.flatMap_cons, List.flatMap_append]
    by_cases hquote : c = '"'
    · have hescape : Escapes '"' [byte '"'] := Escapes.short (d := 0x22) (by decide)
      rw [hquote]
      exact Spells.escaped hescape ih
    by_cases hslash : c = '\\'
    · have hescape : Escapes '\\' [byte '\\'] := Escapes.short (d := 0x5c) (by decide)
      rw [hslash]
      exact Spells.escaped hescape ih
    by_cases hcontrol : c.toNat < 0x20
    · obtain ⟨tail, hprinted, hescape⟩ := escapes_control hcontrol
      rw [hprinted, List.flatMap_cons, hbackslash]
      exact Spells.escaped hescape ih
    · rw [escape, if_neg hquote, if_neg hslash, if_neg hcontrol, List.flatMap_singleton]
      exact Spells.plain hquote hslash (Nat.not_lt.1 hcontrol) ih

end Json

end PerfRelay
