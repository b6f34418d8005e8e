import PerfRelay.Text.LowerCase.Table
import PerfRelay.Text.Ranges

/-!
# Lower case

Names given in settings are compared by their full lower case.  Every character has a lower case of
its own, with two exceptions: the dotted capital I becomes two characters, and a capital sigma
becomes the final form at the end of a word.

Main results:

- Theorem `lowerCase_ascii`: on ASCII text the lower case is the letter-by-letter one.
-/

namespace PerfRelay

open LowerCase

namespace LowerCase

/-- Whether a character has letter case. -/
def isCased (c : Char) : Bool :=
  inRanges casedRanges c.toNat

/-- Whether a character is passed over when the neighbours of a letter are looked at. -/
def isIgnorable (c : Char) : Bool :=
  inRanges ignorableRanges c.toNat

/-- Whether the nearest character that counts is a cased one. -/
def meetsCased (cs : List Char) : Bool :=
  match cs.dropWhile isIgnorable with
  | [] => false
  | c :: _ => isCased c

/-- Whether a capital sigma ends a word: a cased letter stands before it and none after it.  The
characters before it are given last first. -/
def isFinalSigma (before after : List Char) : Bool :=
  meetsCased before && !meetsCased after

/-- The lower case of a character that is looked at on its own. -/
def lowerChar (c : Char) : List Char :=
  if c.toNat < 0x80 then [c.toLower]
  else if c.toNat = 0x130 then ['i', Char.ofNat 0x307]
  else
    match caseRuns.find? (·.covers c.toNat) with
    | none => [c]
    | some run => [Char.ofNat (c.toNat + run.shift).toNat]

/-- The lower case of the remaining characters; `before` holds the ones already seen, last first. -/
def lowerChars (before : List Char) : List Char → List Char
  | [] => []
  | c :: after =>
    (if c.toNat = 0x3a3 then
      [Char.ofNat (if isFinalSigma before after then 0x3c2 else 0x3c3)]
     else lowerChar c) ++ lowerChars (c :: before) after

theorem lowerChars_ascii {cs : List Char} (h : ∀ c ∈ cs, c.toNat < 0x80) (before : List Char) :
    lowerChars before cs = cs.map Char.toLower := by
  induction cs generalizing before with
  | nil => rfl
  | cons c cs ih =>
    have hc : c.toNat < 0x80 := h c (by simp)
    rw [lowerChars, if_neg (by omega), lowerChar, if_pos hc, ih fun d hd => h d (by simp [hd])]
    rfl

end LowerCase

/-- The lower case of a text. -/
def lowerCase (text : String) : String :=
  String.ofList (lowerChars [] text.toList)

theorem lowerCase_ascii {text : String} (h : ∀ c ∈ text.toList, c.toNat < 0x80) :
    lowerCase text = String.ofList (text.toList.map Char.toLower) := by
  rw [lowerCase, lowerChars_ascii h]

example : lowerCase "\u039f\u0394\u039f\u03a3" = "\u03bf\u03b4\u03bf\u03c2" := by decide +kernel

example : lowerCase "a\u03a3\u0295" = "a\u03c2\u0295" := by decide +kernel

end PerfRelay
