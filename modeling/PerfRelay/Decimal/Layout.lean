import PerfRelay.Decimal.Shortest

/-!
# Layouts of decimals

How the shortest decimal of a number is laid out as text: between two bounds on the position of the
leading digit it is written out with a point, beyond them with a power of ten.
-/

namespace PerfRelay

/-- The decisions of a number format. -/
structure DecimalLayout where
  /-- Which of two equally near decimals is taken. -/
  tie : Tie
  /-- The least position of the leading digit that is written out. -/
  leastPlain : Option Int
  /-- The greatest position of the leading digit that is written out. -/
  greatestPlain : Option Int
  /-- Whether a whole number that is written out ends in `.0`. -/
  showsPoint : Bool

namespace DecimalLayout

/-- Always written out, whole numbers without a point; of two equally near decimals the greater. -/
def writtenOut : DecimalLayout := ⟨.up, none, none, false⟩

/-- Whether a leading digit at this position is written out. -/
def isPlain (layout : DecimalLayout) (position : Int) : Bool :=
  layout.leastPlain.all (· ≤ position) && layout.greatestPlain.all (position ≤ ·)

/-- The digits written out, the leading one at the given position. -/
def plain (layout : DecimalLayout) (digits : List Char) (position : Int) : List Char :=
  if position < 0 then
    '0' :: '.' :: List.replicate (-position - 1).toNat '0' ++ digits
  else
    let whole := position.toNat + 1
    if digits.length ≤ whole then
      digits ++ List.replicate (whole - digits.length) '0' ++
        (if layout.showsPoint then ['.', '0'] else [])
    else digits.take whole ++ '.' :: digits.drop whole

/-- The digits with a point after the first one, and a power of ten. -/
def scientific (digits : List Char) (position : Int) : List Char :=
  (match digits with
    | [] => []
    | [d] => [d]
    | d :: rest => d :: '.' :: rest) ++
  'e' :: (if position < 0 then '-' else '+') :: Nat.toDigits 10 position.natAbs

/-- The text of a number. -/
def render (layout : DecimalLayout) (x : Binary64) : List Char :=
  let decimal := Decimal.shortest layout.tie x
  let digits := Nat.toDigits 10 decimal.digits
  let position := decimal.exponent + digits.length - 1
  (if x.negative then ['-'] else []) ++
    (if layout.isPlain position then layout.plain digits position else scientific digits position)

example : (Binary64.ofDecimal? false 25 (-1)).map writtenOut.render = some ['2', '.', '5'] := by
  decide +kernel

example : writtenOut.render (.zero true) = ['-', '0'] := by decide +kernel

example : (Binary64.ofDecimal? false 1 (-3)).map writtenOut.render =
    some ['0', '.', '0', '0', '1'] := by decide +kernel

end DecimalLayout

end PerfRelay
