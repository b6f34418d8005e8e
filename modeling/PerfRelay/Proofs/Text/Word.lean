import Mathlib.Data.List.Induction
import Mathlib.Data.Nat.Digits.Defs
import PerfRelay.Text.Word

/-!
# Words and the numbers that digits write

The digits of a number, however many they are, stand for a word exactly when the number is below
`2 ^ 64`, and then for the word with that number.  Zeros in front change neither, and no number
comes out smaller than it is written.

Main results:

- Theorem `pushDigit?_eq_some_iff`: what one more digit makes of a word.
- Theorem `ofDigits?_eq_some_iff`: which word some digits stand for.
-/

namespace PerfRelay.Word

/-- The number that decimal digits write, the highest one first. -/
def decimalValue (digits : List Char) : Nat :=
  Nat.ofDigits 10 (digits.reverse.map fun c => c.toNat - '0'.toNat)

theorem decimalValue_concat (digits : List Char) (c : Char) :
    decimalValue (digits ++ [c]) = 10 * decimalValue digits + (c.toNat - '0'.toNat) := by
  rw [decimalValue, List.reverse_append, List.reverse_singleton, List.singleton_append,
    List.map_cons, Nat.ofDigits_cons, Nat.add_comm]
  rfl

theorem toNat_ofDigit (c : Char) : (ofDigit c).toNat = c.toNat - '0'.toNat := by
  have hscalar : c.toNat < UInt32.size := c.val.toNat_lt
  have hword : c.toNat - '0'.toNat < UInt64.size :=
    Nat.lt_of_le_of_lt (Nat.sub_le _ _) (Nat.lt_trans hscalar (by decide))
  exact Nat.mod_eq_of_lt hword

/-- A product is a word exactly when a word has room for it. -/
theorem mul?_eq_some_iff {a b word : UInt64} :
    mul? a b = some word ↔ a.toNat * b.toNat = word.toNat := by
  rw [mul?]
  split
  · rename_i hroom
    have hproduct : (a * b).toNat = a.toNat * b.toNat := by
      rw [UInt64.toNat_mul]
      exact Nat.mod_eq_of_lt hroom
    rw [Option.some.injEq, ← UInt64.toNat_inj, hproduct]
  · rename_i hroom
    have hword := word.toNat_lt
    constructor
    · rintro ⟨⟩
    · intro heq
      exact absurd (heq ▸ hword) hroom

/-- A sum is a word exactly when a word has room for it. -/
theorem add?_eq_some_iff {a b word : UInt64} :
    add? a b = some word ↔ a.toNat + b.toNat = word.toNat := by
  rw [add?]
  split
  · rename_i hroom
    have hsum : (a + b).toNat = a.toNat + b.toNat := by
      rw [UInt64.toNat_add]
      exact Nat.mod_eq_of_lt hroom
    rw [Option.some.injEq, ← UInt64.toNat_inj, hsum]
  · rename_i hroom
    have hword := word.toNat_lt
    constructor
    · rintro ⟨⟩
    · intro heq
      exact absurd (heq ▸ hword) hroom

/-- One more digit makes a word ten times as great and adds its own value, if there is room. -/
theorem pushDigit?_eq_some_iff {before word : UInt64} {c : Char} :
    pushDigit? before c = some word ↔
      10 * before.toNat + (c.toNat - '0'.toNat) = word.toNat := by
  have hten : (10 : UInt64).toNat = 10 := rfl
  rw [pushDigit?, Option.bind_eq_some_iff]
  constructor
  · rintro ⟨shifted, hshifted, hsum⟩
    rw [mul?_eq_some_iff, hten] at hshifted
    rw [add?_eq_some_iff, toNat_ofDigit] at hsum
    omega
  · intro hword
    -- What ten times the word comes to is not more than the whole, so there is room for it.
    have hroom : before.toNat * 10 < UInt64.size := by
      have := word.toNat_lt
      have hsize : UInt64.size = 2 ^ 64 := rfl
      omega
    have hshifted : (before * 10).toNat = before.toNat * 10 := by
      rw [UInt64.toNat_mul]
      exact Nat.mod_eq_of_lt hroom
    refine ⟨before * 10, ?_, ?_⟩
    · rw [mul?_eq_some_iff, hshifted, hten]
    · rw [add?_eq_some_iff, hshifted, toNat_ofDigit]
      omega

/-- Digits stand for the word with the number that they write, and for none if no word has it.  The
induction is on the digits, the last one first. -/
theorem ofDigits?_eq_some_iff {digits : List Char} {word : UInt64} :
    ofDigits? digits = some word ↔ decimalValue digits = word.toNat := by
  induction digits using List.reverseRecOn generalizing word with
  | nil =>
    have hnone : decimalValue [] = (0 : UInt64).toNat := rfl
    rw [hnone, UInt64.toNat_inj]
    exact Option.some_inj
  | append_singleton digits c ih =>
    have hpush : ofDigits? (digits ++ [c]) = (ofDigits? digits).bind (pushDigit? · c) := by
      rw [ofDigits?, List.foldlM_append]
      simp only [List.foldlM_cons, List.foldlM_nil, bind_pure]
      rfl
    rw [hpush, Option.bind_eq_some_iff, decimalValue_concat]
    constructor
    · rintro ⟨before, hbefore, hword⟩
      rw [ih.1 hbefore]
      exact pushDigit?_eq_some_iff.1 hword
    · intro hword
      -- The digits before the last one write a smaller number, which is a word as well.
      have hroom : decimalValue digits < 2 ^ 64 := by
        have := word.toNat_lt
        omega
      have hbefore : decimalValue digits = (UInt64.ofNat (decimalValue digits)).toNat :=
        (UInt64.toNat_ofNat_of_lt' hroom).symm
      refine ⟨_, ih.2 hbefore, pushDigit?_eq_some_iff.2 ?_⟩
      rw [← hbefore]
      exact hword

/-- Only a number that is too great for every word is no word. -/
theorem ofDigits?_eq_none_iff {digits : List Char} :
    ofDigits? digits = none ↔ 2 ^ 64 ≤ decimalValue digits := by
  rw [Option.eq_none_iff_forall_ne_some]
  constructor
  · intro hnone
    by_contra hroom
    exact hnone _ (ofDigits?_eq_some_iff.2
      (UInt64.toNat_ofNat_of_lt' (Nat.not_le.1 hroom)).symm)
  · intro hlarge word hword
    have := word.toNat_lt
    have := ofDigits?_eq_some_iff.1 hword
    omega

end PerfRelay.Word
