import Mathlib.Data.Nat.Digits.Lemmas
import PerfRelay.Proofs.Decimal.Range
import PerfRelay.Proofs.Json.Grammar

/-!
# The magnitude of a number

A number is told by its digits, its point and its exponent, and it has a value unless it is beyond
every binary64 number.  Leading zeros do not count, and numbers with a great many digits or a great
exponent are told apart without any arithmetic.

Main results:

- Theorem `decimal?_eq_none_iff`: which decimals have no value.
- Theorem `Numeral.value?_eq_none_iff`: which numbers have none.
-/

namespace PerfRelay.Json

variable {digits : List UInt8}

/-! ## Digits -/

theorem digitsValue_eq_ofDigits (digits : List UInt8) :
    digitsValue digits = Nat.ofDigits 10 (digits.reverse.map fun d => d.toNat - 0x30) := by
  rw [digitsValue_eq]
  induction digits using List.reverseRecOn with
  | nil => rfl
  | append_singleton digits d ih =>
    rw [List.foldl_append, ih, List.reverse_append, List.reverse_singleton, List.singleton_append,
      List.map_cons, Nat.ofDigits_cons, Nat.add_comm]
    rfl

/-- The first digit counts for as many places as come after it. -/
theorem digitsValue_cons (d : UInt8) (digits : List UInt8) :
    digitsValue (d :: digits) = (d.toNat - 0x30) * 10 ^ digits.length + digitsValue digits := by
  rw [digitsValue_eq_ofDigits, digitsValue_eq_ofDigits, List.reverse_cons, List.map_append,
    Nat.ofDigits_append, List.map_singleton, Nat.ofDigits_singleton, List.length_map,
    List.length_reverse, Nat.add_comm, Nat.mul_comm]

theorem digitsValue_lt (h : ∀ d ∈ digits, isDigit d = true) :
    digitsValue digits < 10 ^ digits.length := by
  have hlt := Nat.ofDigits_lt_base_pow_length (b := 10)
    (l := digits.reverse.map fun d => d.toNat - 0x30) (by decide) (by
      intro n hn
      obtain ⟨d, hd, rfl⟩ := List.mem_map.1 hn
      have hdigit := h d (List.mem_reverse.1 hd)
      simp only [isDigit, Bool.and_eq_true, decide_eq_true_eq, UInt8.le_iff_toNat_le] at hdigit
      have hnine : (0x39 : UInt8).toNat = 57 := rfl
      omega)
  rwa [← digitsValue_eq_ofDigits, List.length_map, List.length_reverse] at hlt

/-- Zeros in front count for nothing. -/
theorem digitsValue_dropWhile (digits : List UInt8) :
    digitsValue (digits.dropWhile (· == byte '0')) = digitsValue digits := by
  induction digits with
  | nil => rfl
  | cons d digits ih =>
    by_cases hd : d = byte '0'
    · subst hd
      rw [List.dropWhile_cons_of_pos (by decide), ih, digitsValue_cons]
      simp [byte]
    · rw [List.dropWhile_cons_of_neg (by simpa using hd)]

/-- A digit in front that is not zero counts for all its places. -/
theorem pow_le_digitsValue {d : UInt8} (hd : isDigit d = true) (hzero : d ≠ byte '0')
    (digits : List UInt8) : 10 ^ digits.length ≤ digitsValue (d :: digits) := by
  have hpos : 1 ≤ d.toNat - 0x30 := by
    simp only [isDigit, Bool.and_eq_true, decide_eq_true_eq, UInt8.le_iff_toNat_le] at hd
    have hne : d.toNat ≠ (byte '0').toNat := fun heq => hzero (UInt8.toNat_inj.1 heq)
    have hself : (byte '0').toNat = 0x30 := rfl
    have hfirst : (0x30 : UInt8).toNat = 0x30 := rfl
    omega
  rw [digitsValue_cons]
  exact le_add_right (Nat.le_mul_of_pos_left _ hpos)

/-! ## Decimals -/

/-- A decimal is below the power of ten that its places reach up to. -/
theorem decimal_lt_pow (h : ∀ d ∈ digits, isDigit d = true) (exponent : Int) :
    digitsValue digits * (10 : ℚ) ^ exponent < 10 ^ (digits.length + exponent) := by
  have hlt : (digitsValue digits : ℚ) < 10 ^ digits.length := by exact_mod_cast digitsValue_lt h
  calc digitsValue digits * (10 : ℚ) ^ exponent
      < 10 ^ digits.length * 10 ^ exponent := mul_lt_mul_of_pos_right hlt (by positivity)
    _ = 10 ^ (digits.length + exponent) := by rw [zpow_add₀ (by norm_num), zpow_natCast]

/-- It is not below the power of ten of its first digit, unless that is zero. -/
theorem pow_le_decimal {d : UInt8} (hd : isDigit d = true) (hzero : d ≠ byte '0')
    (digits : List UInt8) (exponent : Int) :
    (10 : ℚ) ^ (digits.length + exponent) ≤ digitsValue (d :: digits) * 10 ^ exponent := by
  have hle : (10 : ℚ) ^ digits.length ≤ digitsValue (d :: digits) := by
    exact_mod_cast pow_le_digitsValue hd hzero digits
  calc (10 : ℚ) ^ (digits.length + exponent)
      = 10 ^ digits.length * 10 ^ exponent := by rw [zpow_add₀ (by norm_num), zpow_natCast]
    _ ≤ digitsValue (d :: digits) * 10 ^ exponent := mul_le_mul_of_nonneg_right hle (by positivity)

theorem overflow_le_ten_pow : Binary64.overflow ≤ (10 : ℚ) ^ (310 : Int) := by
  have hpow : 2 ^ 1024 ≤ 10 ^ 310 := by decide +kernel
  refine Binary64.overflow_le_pow.trans ?_
  rw [zpow_ofNat, zpow_ofNat]
  exact_mod_cast hpow

theorem one_le_overflow : 1 ≤ Binary64.overflow :=
  (one_le_zpow₀ one_le_two (by decide)).trans Binary64.pow_le_overflow

/-- A decimal has no value if and only if it is beyond every number. -/
theorem decimal?_eq_none_iff (negative : Bool) (h : ∀ d ∈ digits, isDigit d = true)
    (exponent : Int) :
    decimal? negative digits exponent = none ↔
      Binary64.overflow ≤ digitsValue digits * (10 : ℚ) ^ exponent := by
  have hdigits : ∀ d ∈ digits.dropWhile (· == byte '0'), isDigit d = true :=
    fun d hd => h d ((List.dropWhile_suffix _).subset hd)
  have hhead := List.head?_dropWhile_not (· == byte '0') digits
  rw [← digitsValue_dropWhile]
  simp only [decimal?]
  generalize digits.dropWhile (· == byte '0') = digits at *
  rcases digits with _ | ⟨d, digits⟩
  · have hzero : digitsValue [] = 0 := digitsValue_eq []
    have hpos := Binary64.overflow_pos
    simp [hzero, hpos]
  have hd : isDigit d = true := hdigits d List.mem_cons_self
  have hne : d ≠ byte '0' := by simpa using hhead
  split_ifs with hsmall hgreat
  · -- So small that it is nearer to zero than to any other number.
    have hlt : digitsValue (d :: digits) * (10 : ℚ) ^ exponent < Binary64.overflow :=
      calc digitsValue (d :: digits) * (10 : ℚ) ^ exponent
          < 10 ^ (((d :: digits).length : Int) + exponent) := decimal_lt_pow hdigits exponent
        _ ≤ 10 ^ (0 : Int) := zpow_le_zpow_right₀ (by norm_num) (by simp at hsmall ⊢; omega)
        _ ≤ Binary64.overflow := one_le_overflow
    simp [hlt]
  · have hge : Binary64.overflow ≤ digitsValue (d :: digits) * (10 : ℚ) ^ exponent :=
      calc Binary64.overflow ≤ (10 : ℚ) ^ (310 : Int) := overflow_le_ten_pow
        _ ≤ 10 ^ (digits.length + exponent) :=
          zpow_le_zpow_right₀ (by norm_num) (by simp at hgreat; omega)
        _ ≤ digitsValue (d :: digits) * 10 ^ exponent := pow_le_decimal hd hne digits exponent
    simp [hge]
  · exact Binary64.ofDecimal?_eq_none_iff negative _ exponent

/-! ## Numbers -/

/-- The exponent of a number with its sign, zero if there is none. -/
def Numeral.power (n : Numeral) : Int :=
  match n.exponent with
  | none => 0
  | some (down, digits) => if down then -(digitsValue digits) else digitsValue digits

/-- The digits of a number before and after its point. -/
def Numeral.places (n : Numeral) : List UInt8 := n.whole ++ n.fraction.getD []

/-- The magnitude that a number is written to have. -/
def Numeral.magnitude (n : Numeral) : ℚ :=
  digitsValue n.places * 10 ^ (n.power - (n.fraction.getD []).length)

/-- A number is kept as a whole one, if a word has room for it, or as the binary64 number nearest to
it. -/
theorem Numeral.value?_cases (negative : Bool) (n : Numeral) :
    (n.magnitude ≤ 2 ^ 64 ∧ ∃ i, n.value? negative = some (.int i)) ∨
      n.value? negative =
        (decimal? negative n.places (n.power - (n.fraction.getD []).length)).map .float := by
  obtain ⟨whole, fraction, exponent⟩ := n
  rcases fraction with _ | fraction
  · rcases exponent with _ | exponent
    · have hplaces : Numeral.places ⟨whole, none, none⟩ = whole := List.append_nil whole
      have hmagnitude : Numeral.magnitude ⟨whole, none, none⟩ = digitsValue whole := by
        simp [magnitude, hplaces, power]
      rw [hmagnitude, hplaces]
      simp only [value?, Nat.pow_eq]
      split_ifs with hnegative hrange hrange
      · refine .inl ⟨?_, _, rfl⟩
        exact_mod_cast hrange.2.trans (by decide)
      · rw [hnegative]
        exact .inr rfl
      · refine .inl ⟨?_, _, rfl⟩
        exact_mod_cast hrange.le
      · rw [Bool.eq_false_iff.2 hnegative]
        exact .inr rfl
    · exact .inr rfl
  · exact .inr rfl

/-- A number has no value if and only if it is beyond every binary64 number. -/
theorem Numeral.value?_eq_none_iff (negative : Bool) {n : Numeral}
    (h : ∀ d ∈ n.places, isDigit d = true) :
    n.value? negative = none ↔ Binary64.overflow ≤ n.magnitude := by
  obtain ⟨hle, i, hvalue⟩ | hvalue := n.value?_cases negative
  · have hlt : n.magnitude < Binary64.overflow :=
      calc n.magnitude ≤ 2 ^ 64 := hle
        _ < 2 ^ (1023 : Int) := by
          rw [zpow_ofNat]
          exact pow_lt_pow_right₀ one_lt_two (by decide)
        _ ≤ Binary64.overflow := Binary64.pow_le_overflow
    simp [hvalue, hlt]
  · rw [hvalue, Option.map_eq_none_iff, decimal?_eq_none_iff negative h]
    rfl

/-- The value of a number is no text. -/
theorem Numeral.value?_ne_string (negative : Bool) (n : Numeral) (text : String) :
    n.value? negative ≠ some (.string text) := by
  obtain ⟨-, i, hvalue⟩ | hvalue := n.value?_cases negative
  · simp [hvalue]
  · simp [hvalue]

/-- The digits of a number that is put together are digits. -/
theorem isDigit_places {whole fraction : List UInt8} (hwhole : Whole whole)
    (hfraction : Fraction fraction) (exponent : List UInt8) :
    ∀ d ∈ (numeralOf whole fraction exponent).places, isDigit d = true := by
  intro d hd
  rcases List.mem_append.1 hd with hd | hd
  · cases hwhole with
    | zero =>
      obtain rfl : d = byte '0' := List.mem_singleton.1 hd
      rfl
    | digits _ hdigits => exact hdigits.isDigit d hd
  · cases hfraction with
    | nil => cases hd
    | digits hdigits => exact hdigits.isDigit d hd

end PerfRelay.Json
