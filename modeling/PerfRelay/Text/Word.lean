/-!
# Whole numbers in 64-bit words

A whole number is read digit by digit into a 64-bit word.  Neither moving the digits up nor adding
the next one may go beyond the word: where it would, the digits stand for no word, so a long number
is never taken for a short one.
-/

namespace PerfRelay.Word

/-- The product of two words, if a word has room for it. -/
def mul? (a b : UInt64) : Option UInt64 :=
  if a.toNat * b.toNat < UInt64.size then some (a * b) else none

/-- The sum of two words, if a word has room for it. -/
def add? (a b : UInt64) : Option UInt64 :=
  if a.toNat + b.toNat < UInt64.size then some (a + b) else none

/-- The value of a decimal digit. -/
def ofDigit (c : Char) : UInt64 := (c.toNat - '0'.toNat).toUInt64

/-- Puts one more digit behind those that a word stands for. -/
def pushDigit? (word : UInt64) (c : Char) : Option UInt64 :=
  (mul? word 10).bind (add? · (ofDigit c))

/-- The word that some decimal digits stand for, the highest one first. -/
def ofDigits? (digits : List Char) : Option UInt64 :=
  digits.foldlM pushDigit? 0

end PerfRelay.Word
