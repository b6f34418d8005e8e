import PerfRelay.Text.Ranges

/-!
# Blank characters

The characters that count as white space in configured texts and in node lists, and the trimming of
a text at both ends.

Main results:

- Theorem `isBlank_of_isWhitespace`: every white space character of the core library is blank.
- Theorem `trimStart_eq_self_iff`: a text is left as it is exactly when it does not begin blank.
-/

namespace PerfRelay

/-- Code points of the blank characters, as ranges in increasing order. -/
def blankRanges : List (Nat × Nat) :=
  [(0x09, 0x0d), (0x20, 0x20), (0x85, 0x85), (0xa0, 0xa0), (0x1680, 0x1680), (0x2000, 0x200a),
   (0x2028, 0x2029), (0x202f, 0x202f), (0x205f, 0x205f), (0x3000, 0x3000)]

/-- Whether a character is white space. -/
def isBlank (c : Char) : Bool :=
  inRanges blankRanges c.toNat

theorem isBlank_of_isWhitespace {c : Char} (h : c.isWhitespace = true) : isBlank c = true := by
  simp only [Char.isWhitespace, Bool.or_eq_true, decide_eq_true_eq] at h
  rcases h with ((rfl | rfl) | rfl) | rfl <;> decide

/-- Drops the blank characters at the front. -/
def trimStart (cs : List Char) : List Char :=
  cs.dropWhile isBlank

theorem trimStart_eq_self_iff {cs : List Char} :
    trimStart cs = cs ↔ ∀ c, cs.head? = some c → isBlank c = false := by
  cases cs with
  | nil => simp [trimStart]
  | cons c cs =>
    cases h : isBlank c with
    | false => simp [trimStart, h]
    | true =>
      have hlen := (List.dropWhile_suffix isBlank (l := cs)).length_le
      simp only [trimStart, List.dropWhile_cons, h, ↓reduceIte, List.head?_cons]
      constructor
      · intro heq
        have := congrArg List.length heq
        simp only [List.length_cons] at this
        omega
      · intro hall
        simpa [h] using hall c rfl

/-- Drops the blank characters at both ends. -/
def trimBlank (cs : List Char) : List Char :=
  (trimStart (trimStart cs).reverse).reverse

/-- Drops the blank characters at both ends of a text. -/
def trim (text : String) : String :=
  String.ofList (trimBlank text.toList)

end PerfRelay
