import Mathlib.Algebra.Field.Rat
import Mathlib.Algebra.Order.Ring.Rat
import Mathlib.Tactic.NormNum
import PerfRelay.Decimal.Binary64

/-!
# Whole numbers in binary

A whole number below `2 ^ 53` has no more digits than a significand, so making a binary64 number of
it rounds nothing.

Main results:

- Theorem `ofRatio?_whole`: the significand and the exponent of a whole number.
- Theorem `toRat_ofNat`: the number that is made of a whole number is that number.
-/

namespace PerfRelay

theorem roundDiv_one (n : Nat) : roundDiv n 1 = n := by
  simp [roundDiv, Nat.mod_one]

namespace Binary64

/-- The number itself. -/
def toRat (x : Binary64) : ℚ :=
  (if x.negative then -1 else 1) * x.significand * (2 : ℚ) ^ x.exponent

/-! ## The leading digit -/

section Leading

variable {n : Nat}

theorem log2_le (hn : n ≠ 0) (h : n < 2 ^ 53) : n.log2 ≤ 52 := by
  have hlt : n.log2 < 53 := (Nat.log2_lt hn).2 h
  omega

/-- Moved up so far that the leading digit has the place 53, the number is too long. -/
theorem pow_le_shifted (hn : n ≠ 0) (hlog : n.log2 ≤ 52) : 2 ^ 53 ≤ n * 2 ^ (53 - n.log2) := by
  calc 2 ^ 53 = 2 ^ n.log2 * 2 ^ (53 - n.log2) := by rw [← Nat.pow_add]; congr 1; omega
    _ ≤ n * 2 ^ (53 - n.log2) := Nat.mul_le_mul_right _ (Nat.log2_self_le hn)

/-- With its leading digit at the place 52 the number fits. -/
theorem shifted_lt_pow (hlog : n.log2 ≤ 52) : n * 2 ^ (52 - n.log2) < 2 ^ 53 := by
  calc n * 2 ^ (52 - n.log2) < 2 ^ (n.log2 + 1) * 2 ^ (52 - n.log2) :=
        Nat.mul_lt_mul_of_pos_right Nat.lt_log2_self (Nat.two_pow_pos _)
    _ = 2 ^ 53 := by rw [← Nat.pow_add]; congr 1; omega

/-- A whole number in units that are no greater than one. -/
theorem inUnits_whole (n k : Nat) : inUnits n 1 (-(k : Int)) = (n * 2 ^ k, 1) := by
  unfold inUnits
  split
  · simp
  · have hk : k = 0 := by omega
    simp [hk]

end Leading

/-! ## The number -/

/-- The significand and the exponent of a whole number. -/
theorem ofRatio?_whole {n : Nat} (hn : n ≠ 0) (h : n < 2 ^ 53) :
    ofRatio? false n 1 = some ⟨false, n * 2 ^ (52 - n.log2), -((52 - n.log2 : Nat) : Int)⟩ := by
  have hlog : n.log2 ≤ 52 := log2_le hn h
  have hfirst : max (-1074 : Int) ((n.log2 : Int) - (Nat.log2 1 : Nat) - 53) =
      -((53 - n.log2 : Nat) : Int) := by
    have hone : Nat.log2 1 = 0 := by decide
    omega
  have hnext : -((53 - n.log2 : Nat) : Int) + 1 = -((52 - n.log2 : Nat) : Int) := by omega
  have hlong : ¬ n * 2 ^ (53 - n.log2) < 2 ^ 53 := Nat.not_lt.2 (pow_le_shifted hn hlog)
  have hfits : n * 2 ^ (52 - n.log2) < 2 ^ 53 := shifted_lt_pow hlog
  have hrange : -((52 - n.log2 : Nat) : Int) ≤ 971 := by omega
  simp only [ofRatio?, if_neg hn, hfirst, inUnits_whole, Nat.div_one, Nat.pow_eq, if_neg hlong,
    hnext, roundDiv_one, if_neg (Nat.ne_of_lt hfits), if_pos hrange]

/-- The number that is made of a whole number below `2 ^ 53` is that number. -/
theorem toRat_ofNat {n : Nat} (h : n < 2 ^ 53) : (ofNat n).toRat = n := by
  by_cases hn : n = 0
  · subst hn
    simp [ofNat, ofRatio?, zero, toRat]
  · rw [ofNat, ofRatio?_whole hn h, Option.getD_some, toRat, zpow_neg, zpow_natCast]
    push_cast
    simp

example : (ofNat (2 ^ 53 + 1)).toRat ≠ 2 ^ 53 + 1 := by
  have hround : ofNat (2 ^ 53 + 1) = ⟨false, 2 ^ 52, 1⟩ := by decide +kernel
  rw [hround]
  norm_num [toRat]

end Binary64

end PerfRelay
