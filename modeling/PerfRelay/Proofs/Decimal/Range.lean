import Mathlib.Algebra.Order.Field.Power
import Mathlib.Tactic.Linarith
import PerfRelay.Proofs.Decimal.Whole

/-!
# The range of binary64 numbers

There is no binary64 number for a fraction from half way between the greatest one and `2 ^ 1024` on,
for there the significand is rounded up to `2 ^ 53` and the exponent with it.  Every fraction below
has one.

Main results:

- Theorem `exists_rounded`: the exponent of a fraction, and what its significand is rounded to.
- Theorem `ofRatio?_eq_none_iff`: which fractions are beyond every number.
- Theorem `ofDecimal?_eq_none_iff`: which decimals are.
-/

namespace PerfRelay

/-- A quotient below `2 ^ 53` is rounded up to it from one half below on: the half goes to the even
neighbour. -/
theorem roundDiv_eq_pow_iff {num den : Nat} (hden : 0 < den) (hlt : num / den < 2 ^ 53) :
    roundDiv num den = 2 ^ 53 ↔ (2 ^ 54 - 1) * den ≤ 2 * num := by
  constructor
  · intro h
    have hbelow : 2 * (roundDiv num den * den) ≤ 2 * num + den := (roundDiv_sub_le hden).1
    rw [h] at hbelow
    omega
  · intro h
    have hquotient : num / den = 2 ^ 53 - 1 := by
      have hle : 2 ^ 53 - 1 ≤ num / den := (Nat.le_div_iff_mul_le hden).2 (by omega)
      omega
    have hdiv := Nat.div_add_mod num den
    rw [hquotient] at hdiv
    have hround : roundDiv num den = 2 ^ 53 - 1 + 1 := by
      simp only [roundDiv, hquotient]
      rw [if_neg (by omega), if_neg (by omega)]
    omega

/-! ## Powers with an exponent of either sign -/

theorem pow_toNat {base : ℚ} {exponent : Int} (h : 0 ≤ exponent) :
    base ^ exponent.toNat = base ^ exponent := by
  rw [← zpow_natCast, Int.toNat_of_nonneg h]

theorem pow_toNat_neg {base : ℚ} {exponent : Int} (h : exponent ≤ 0) :
    base ^ (-exponent).toNat = (base ^ exponent)⁻¹ := by
  rw [pow_toNat (Int.neg_nonneg_of_nonpos h), zpow_neg]

namespace Binary64

section

variable {num den : Nat}

/-! ## Units -/

theorem inUnits_pos (num : Nat) (hden : 0 < den) (exponent : Int) :
    0 < (inUnits num den exponent).2 := by
  unfold inUnits
  split
  · exact hden
  · exact Nat.mul_pos hden (Nat.pow_pos Nat.two_pos)

/-- How a fraction in units compares with a number of them. -/
theorem inUnits_mul_le_iff (num : Nat) (hden : 0 < den) (exponent : Int) (n k : Nat) :
    n * (inUnits num den exponent).2 ≤ k * (inUnits num den exponent).1 ↔
      n * (2 : ℚ) ^ exponent ≤ k * (num / den) := by
  have hden' : (0 : ℚ) < den := by exact_mod_cast hden
  have htwo : (0 : ℚ) < 2 ^ exponent := by positivity
  rw [← mul_div_assoc, le_div_iff₀ hden', ← Nat.cast_le (α := ℚ)]
  unfold inUnits
  split
  · rename_i hneg
    simp only [Nat.pow_eq]
    push_cast
    rw [pow_toNat_neg (by omega), ← mul_assoc, ← div_eq_mul_inv, le_div_iff₀ htwo]
    constructor <;> intro h <;> linarith
  · rename_i hpos
    simp only [Nat.pow_eq]
    push_cast
    rw [pow_toNat (by omega)]
    constructor <;> intro h <;> linarith

/-- A fraction in units has few digits if it is small. -/
theorem inUnits_div_lt_iff (hden : 0 < den) (exponent : Int) :
    (inUnits num den exponent).1 / (inUnits num den exponent).2 < 2 ^ 53 ↔
      (num / den : ℚ) < 2 ^ (53 + exponent) := by
  have hiff := inUnits_mul_le_iff num hden exponent (2 ^ 53) 1
  rw [← not_le, ← not_le, Nat.le_div_iff_mul_le (inUnits_pos num hden exponent)]
  push_cast [one_mul, zpow_add₀, zpow_ofNat] at hiff ⊢
  rw [hiff, zpow_add₀ two_ne_zero]
  norm_num

/-! ## The exponent -/

/-- The leading digits of a fraction give its size to a factor of two. -/
theorem pow_log2_lt (hnum : num ≠ 0) (hden : 0 < den) :
    (2 : ℚ) ^ ((num.log2 : Int) - den.log2 - 1) ≤ num / den ∧
      (num / den : ℚ) < 2 ^ ((num.log2 : Int) - den.log2 + 1) := by
  have hden' : (0 : ℚ) < den := by exact_mod_cast hden
  have hnumLow : (2 : ℚ) ^ num.log2 ≤ num := by exact_mod_cast Nat.log2_self_le hnum
  have hnumHigh : (num : ℚ) < 2 ^ (num.log2 + 1) := by exact_mod_cast Nat.lt_log2_self
  have hdenLow : (2 : ℚ) ^ den.log2 ≤ den := by exact_mod_cast Nat.log2_self_le hden.ne'
  have hdenHigh : (den : ℚ) < 2 ^ (den.log2 + 1) := by exact_mod_cast Nat.lt_log2_self
  constructor
  · rw [le_div_iff₀ hden']
    calc (2 : ℚ) ^ ((num.log2 : Int) - den.log2 - 1) * den
        ≤ 2 ^ ((num.log2 : Int) - den.log2 - 1) * 2 ^ (den.log2 + 1) := by gcongr
      _ = 2 ^ num.log2 := by
        rw [← zpow_natCast, ← zpow_natCast, ← zpow_add₀ two_ne_zero]
        congr 1
        omega
      _ ≤ num := hnumLow
  · rw [div_lt_iff₀ hden']
    calc (num : ℚ) < 2 ^ (num.log2 + 1) := hnumHigh
      _ = 2 ^ ((num.log2 : Int) - den.log2 + 1) * 2 ^ den.log2 := by
        rw [← zpow_natCast, ← zpow_natCast, ← zpow_add₀ two_ne_zero]
        congr 1
        omega
      _ ≤ 2 ^ ((num.log2 : Int) - den.log2 + 1) * den := by gcongr

/-- The exponent of a fraction: it has at most 53 digits before the point, and not fewer unless the
exponent is the least one. -/
structure Scales (num den : Nat) (exponent : Int) : Prop where
  below : (num / den : ℚ) < 2 ^ (53 + exponent)
  above : -1074 < exponent → (2 : ℚ) ^ (52 + exponent) ≤ num / den

/-- What a fraction is rounded to, with the given exponent. -/
def rounded (negative : Bool) (num den : Nat) (exponent : Int) : Option Binary64 :=
  let (p, q) := inUnits num den exponent
  if roundDiv p q = 2 ^ 53 then
    if exponent + 1 ≤ 971 then some ⟨negative, 2 ^ 52, exponent + 1⟩ else none
  else if exponent ≤ 971 then some ⟨negative, roundDiv p q, exponent⟩ else none

/-- The exponent of a fraction, and what its significand is rounded to. -/
theorem exists_rounded (negative : Bool) (hnum : num ≠ 0) (hden : 0 < den) :
    ∃ exponent, Scales num den exponent ∧
      ofRatio? negative num den = rounded negative num den exponent := by
  obtain ⟨hlow, hhigh⟩ := pow_log2_lt hnum hden
  generalize hfirst : max (-1074 : Int) ((num.log2 : Int) - den.log2 - 53) = first
  have hof : ∀ exponent, (if (inUnits num den first).1 / (inUnits num den first).2 < 2 ^ 53 then
      first else first + 1) = exponent →
        ofRatio? negative num den = rounded negative num den exponent := by
    rintro exponent rfl
    simp only [ofRatio?, if_neg hnum, hfirst, rounded, Nat.pow_eq]
    split_ifs <;> rfl
  by_cases hshort : (inUnits num den first).1 / (inUnits num den first).2 < 2 ^ 53
  · refine ⟨first, ⟨(inUnits_div_lt_iff hden first).1 hshort, fun hleast => ?_⟩,
      hof _ (if_pos hshort)⟩
    refine le_trans (zpow_le_zpow_right₀ one_le_two ?_) hlow
    omega
  · refine ⟨first + 1, ⟨lt_of_lt_of_le hhigh (zpow_le_zpow_right₀ one_le_two ?_), fun _ => ?_⟩,
      hof _ (if_neg hshort)⟩
    · omega
    · rw [inUnits_div_lt_iff hden, not_lt] at hshort
      refine le_trans (zpow_le_zpow_right₀ one_le_two ?_) hshort
      omega

/-! ## Beyond every number -/

/-- Half way between the greatest number and `2 ^ 1024`. -/
def overflow : ℚ := (2 ^ 54 - 1) * 2 ^ 970

theorem pow_le_overflow : (2 : ℚ) ^ (1023 : Int) ≤ overflow := by
  calc (2 : ℚ) ^ (1023 : Int) = 2 ^ 53 * 2 ^ 970 := by rw [zpow_ofNat, ← pow_add]
    _ ≤ overflow := mul_le_mul_of_nonneg_right (by norm_num) (by positivity)

theorem overflow_le_pow : overflow ≤ (2 : ℚ) ^ (1024 : Int) := by
  calc overflow ≤ 2 ^ 54 * 2 ^ 970 := mul_le_mul_of_nonneg_right (by norm_num) (by positivity)
    _ = (2 : ℚ) ^ (1024 : Int) := by rw [zpow_ofNat, ← pow_add]

theorem overflow_pos : 0 < overflow :=
  lt_of_lt_of_le (by positivity) pow_le_overflow

/-- With the greatest exponent, a fraction is rounded up from there on. -/
theorem roundDiv_inUnits_eq_pow_iff (hden : 0 < den) (hbelow : (num / den : ℚ) < 2 ^ (53 + 971)) :
    roundDiv (inUnits num den 971).1 (inUnits num den 971).2 = 2 ^ 53 ↔
      overflow ≤ num / den := by
  have hshort := (inUnits_div_lt_iff hden 971).2 (by exact_mod_cast hbelow)
  have hunit : (2 : ℚ) ^ (971 : Int) = 2 * 2 ^ 970 := by rw [zpow_ofNat, ← pow_succ']
  have hiff := inUnits_mul_le_iff num hden 971 (2 ^ 54 - 1) 2
  rw [roundDiv_eq_pow_iff (inUnits_pos num hden 971) hshort, hiff, hunit, overflow]
  generalize (2 : ℚ) ^ 970 = unit
  push_cast
  constructor <;> intro h <;> linarith

/-- There is no number for a fraction if and only if it is at least as great as that. -/
theorem ofRatio?_eq_none_iff (negative : Bool) (hden : 0 < den) :
    ofRatio? negative num den = none ↔ overflow ≤ num / den := by
  by_cases hnum : num = 0
  · subst hnum
    simp [ofRatio?, overflow_pos]
  obtain ⟨exponent, hscales, hof⟩ := exists_rounded negative hnum hden
  rw [hof]
  rcases lt_trichotomy exponent 971 with hsmall | rfl | hgreat
  · -- A smaller exponent leaves room for rounding up.
    have hlt : (num / den : ℚ) < overflow :=
      calc (num / den : ℚ) < 2 ^ (53 + exponent) := hscales.below
        _ ≤ 2 ^ (1023 : Int) := zpow_le_zpow_right₀ one_le_two (by omega)
        _ ≤ overflow := pow_le_overflow
    simp only [rounded, if_pos (show exponent + 1 ≤ 971 by omega),
      if_pos (show exponent ≤ 971 by omega), not_le.2 hlt, iff_false]
    split_ifs <;> simp
  · rw [← roundDiv_inUnits_eq_pow_iff hden (by exact_mod_cast hscales.below)]
    simp only [rounded]
    split_ifs <;> simp_all
  · have hge : overflow ≤ num / den :=
      calc overflow ≤ 2 ^ (1024 : Int) := overflow_le_pow
        _ ≤ 2 ^ (52 + exponent) := zpow_le_zpow_right₀ one_le_two (by omega)
        _ ≤ num / den := hscales.above (by omega)
    simp only [rounded, if_neg (show ¬ exponent + 1 ≤ 971 by omega),
      if_neg (show ¬ exponent ≤ 971 by omega), ite_self, hge]

/-- There is no number for a decimal if and only if its magnitude is at least as great as that. -/
theorem ofDecimal?_eq_none_iff (negative : Bool) (digits : Nat) (exponent : Int) :
    ofDecimal? negative digits exponent = none ↔ overflow ≤ digits * (10 : ℚ) ^ exponent := by
  unfold ofDecimal?
  split
  · rename_i hneg
    rw [Nat.pow_eq, ofRatio?_eq_none_iff negative (Nat.pow_pos (by decide))]
    push_cast
    rw [pow_toNat_neg (by omega), div_inv_eq_mul]
  · rename_i hpos
    rw [Nat.pow_eq, ofRatio?_eq_none_iff negative Nat.one_pos]
    push_cast
    rw [pow_toNat (by omega), div_one]

end

end Binary64

end PerfRelay
