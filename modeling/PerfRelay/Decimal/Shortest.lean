import PerfRelay.Decimal.Binary64

/-!
# Shortest decimals

A binary64 number is written with the fewest decimal digits that still lie nearer to it than to any
other binary64 number; of those with that many digits the nearest one is taken.  The search goes
through the decimal grids from coarse to fine and looks at the two neighbours of the number on each.
-/

namespace PerfRelay

/-- Which of two equally near decimals is taken. -/
inductive Tie where
  | toEven
  | up
deriving DecidableEq, Repr

/-- A decimal `digits * 10 ^ exponent`. -/
structure Decimal where
  digits : Nat
  exponent : Int
deriving DecidableEq, Repr

namespace Decimal

/-- The decimal position of a fraction: the least `k` with `num / den < 10 ^ k`. -/
def order (num den : Nat) : Int :=
  if den ≤ num then digitCount (num / den)
  else
    let k := digitCount (den / num)
    if num * Nat.pow 10 (k - 1) = den then 2 - (k : Int) else 1 - (k : Int)

/-- The reals that round to a number, as the bounds of their interval in quarters of its last place,
and whether the bounds belong to it. -/
structure Neighbourhood where
  low : Nat
  high : Nat
  closed : Bool

/-- The neighbourhood of a number that is not zero.  Below a power of two the numbers lie twice as
dense. -/
def neighbourhood (x : Binary64) : Neighbourhood :=
  let dense := x.significand = Nat.pow 2 52 ∧ -1074 < x.exponent
  { low := 4 * x.significand - (if dense then 1 else 2)
    high := 4 * x.significand + 2
    closed := x.significand % 2 == 0 }

/-- Looks at the grid of multiples of `10 ^ exponent` and takes the nearer of the two neighbours of
the number that lie in its neighbourhood. -/
def onGrid? (tie : Tie) (x : Binary64) (exponent : Int) : Option Decimal :=
  let quarter := x.exponent - 2
  let grid := Nat.pow 10 exponent.toNat * Nat.pow 2 (-quarter).toNat
  let unit := Nat.pow 2 quarter.toNat * Nat.pow 10 (-exponent).toNat
  let value := 4 * x.significand * unit
  let around := neighbourhood x
  let inside (candidate : Nat) : Bool :=
    if around.closed then
      around.low * unit ≤ candidate * grid && candidate * grid ≤ around.high * unit
    else around.low * unit < candidate * grid && candidate * grid < around.high * unit
  let below := value / grid
  let rest := 2 * (value % grid)
  let preferBelow := rest < grid || (rest == grid && tie == .toEven && below % 2 == 0)
  match inside below, inside (below + 1) with
  | true, true => some ⟨if preferBelow then below else below + 1, exponent⟩
  | true, false => some ⟨below, exponent⟩
  | false, true => some ⟨below + 1, exponent⟩
  | false, false => none

/-- Goes through the grids from `exponent` to finer ones. -/
def search (tie : Tie) (x : Binary64) : Nat → Int → Decimal
  | 0, exponent => ⟨0, exponent⟩
  | tries + 1, exponent =>
    match onGrid? tie x exponent with
    | some decimal => decimal
    | none => search tie x tries (exponent - 1)

/-- The shortest decimal of the magnitude of a number.  The search starts one grid above the leading
digit, where only a power of ten can lie, and seventeen digits always suffice. -/
def shortest (tie : Tie) (x : Binary64) : Decimal :=
  if x.significand = 0 then ⟨0, 0⟩
  else
    let (num, den) := x.ratio
    search tie x 18 (order num den)

example : (Binary64.ofDecimal? false 3 (-1)).map (shortest .toEven) = some ⟨3, -1⟩ := by
  decide +kernel

example : (Binary64.ofDecimal? false 1 23).map (shortest .toEven) = some ⟨1, 23⟩ := by
  decide +kernel

example : (Binary64.ofDecimal? false 4 (-324)).map (shortest .toEven) = some ⟨5, -324⟩ := by
  decide +kernel

end Decimal

end PerfRelay
