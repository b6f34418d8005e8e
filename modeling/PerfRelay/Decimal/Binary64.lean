/-!
# Binary64 numbers

Finite binary floating point numbers with 53 bits of precision, as a sign, a significand and an
exponent of two.  They are made from exact fractions and decimals by rounding to the nearest one,
ties to the even significand, all in exact arithmetic.

Main results:

- Theorem `roundDiv_sub_le`: rounding a quotient moves it by at most one half.
-/

namespace PerfRelay

/-- The quotient rounded to the nearest whole number, a half to the even neighbour. -/
def roundDiv (num den : Nat) : Nat :=
  let quotient := num / den
  let twice := 2 * (num % den)
  if twice < den then quotient
  else if twice = den ∧ quotient % 2 = 0 then quotient
  else quotient + 1

theorem roundDiv_le (num den : Nat) : roundDiv num den ≤ num / den + 1 := by
  simp only [roundDiv]
  split
  · omega
  · split <;> omega

theorem le_roundDiv (num den : Nat) : num / den ≤ roundDiv num den := by
  simp only [roundDiv]
  split
  · omega
  · split <;> omega

/-- Rounding a quotient moves it by at most one half. -/
theorem roundDiv_sub_le {num den : Nat} (h : 0 < den) :
    2 * (roundDiv num den * den) ≤ 2 * num + den ∧
      2 * num ≤ 2 * (roundDiv num den * den) + den := by
  have hdiv := Nat.div_add_mod num den
  have hmod := Nat.mod_lt num h
  have hcomm : den * (num / den) = num / den * den := Nat.mul_comm ..
  simp only [roundDiv]
  split
  · omega
  · split
    · omega
    · rw [Nat.add_mul]
      omega

/-- The number of decimal digits, one for zero. -/
def digitCount (n : Nat) : Nat :=
  (Nat.toDigits 10 n).length

/-- A finite binary64 number with the magnitude `significand * 2 ^ exponent`.  The significand is
below `2 ^ 53`, and at least `2 ^ 52` unless the exponent is the least one, `-1074`. -/
structure Binary64 where
  negative : Bool
  significand : Nat
  exponent : Int
deriving DecidableEq, Repr, Inhabited

namespace Binary64

/-- Zero with the given sign. -/
def zero (negative : Bool) : Binary64 := ⟨negative, 0, -1074⟩

/-- A magnitude as a fraction. -/
def ratio (x : Binary64) : Nat × Nat :=
  if x.exponent < 0 then (x.significand, Nat.pow 2 (-x.exponent).toNat)
  else (x.significand * Nat.pow 2 x.exponent.toNat, 1)

/-- The fraction `num / den` in units of `2 ^ exponent`. -/
def inUnits (num den : Nat) (exponent : Int) : Nat × Nat :=
  if exponent < 0 then (num * Nat.pow 2 (-exponent).toNat, den)
  else (num, den * Nat.pow 2 exponent.toNat)

/-- The number nearest to a fraction, ties to the even significand; `none` when that lies beyond the
greatest number. -/
def ofRatio? (negative : Bool) (num den : Nat) : Option Binary64 :=
  if num = 0 then some (zero negative)
  else
    let first : Int := max (-1074) ((Nat.log2 num : Int) - Nat.log2 den - 53)
    let (p, q) := inUnits num den first
    let exponent := if p / q < Nat.pow 2 53 then first else first + 1
    let (p, q) := inUnits num den exponent
    let significand := roundDiv p q
    let (significand, exponent) :=
      if significand = Nat.pow 2 53 then (Nat.pow 2 52, exponent + 1) else (significand, exponent)
    if exponent ≤ 971 then some ⟨negative, significand, exponent⟩ else none

/-- The number nearest to `digits * 10 ^ exponent`, ties to the even significand; `none` when that
lies beyond the greatest number. -/
def ofDecimal? (negative : Bool) (digits : Nat) (exponent : Int) : Option Binary64 :=
  if exponent < 0 then ofRatio? negative digits (Nat.pow 10 (-exponent).toNat)
  else ofRatio? negative (digits * Nat.pow 10 exponent.toNat) 1

/-- The number nearest to a natural number below `2 ^ 1023`. -/
def ofNat (n : Nat) : Binary64 :=
  (ofRatio? false n 1).getD (zero false)

/-- The sum of two numbers that are not negative, rounded to the nearest. -/
def add (x y : Binary64) : Binary64 :=
  let (a, b) := x.ratio
  let (c, d) := y.ratio
  (ofRatio? false (a * d + c * b) (b * d)).getD (zero false)

example : ofNat 3 = ⟨false, 3 * 2 ^ 51, -51⟩ := by decide +kernel

example : ofDecimal? false 5 (-324) = some ⟨false, 1, -1074⟩ := by decide +kernel

example : ofDecimal? true 1 400 = none := by decide +kernel

end Binary64

end PerfRelay
