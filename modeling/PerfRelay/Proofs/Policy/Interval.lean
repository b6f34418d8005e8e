import PerfRelay.Policy.Interval
import PerfRelay.Proofs.Text.Word

/-!
# The grammar of the interval setting

A setting is a number of minutes if it is a text of decimal digits, at least one, with the letter m
behind them and nothing else anywhere.  Of these the ones from one minute to thirty give an
interval.  Neither the number of digits nor zeros in front of them count, only the number that they
write.

Main results:

- Theorem `digits?_eq_some_iff`: the texts of the right form.
- Theorems `read_of_writes` and `read_of_not_writes`: what is made of a setting.
- Theorem `interval_grammar`: which settings give which interval.
-/

namespace PerfRelay.Interval

variable {value : Json.Value} {n : Nat}

/-- The setting is a text of decimal digits that write a number, with the letter m behind them. -/
def Writes (value : Json.Value) (n : Nat) : Prop :=
  ∃ digits : List Char, value = .string (String.ofList (digits ++ ['m'])) ∧ digits ≠ [] ∧
    (∀ c ∈ digits, '0' ≤ c ∧ c ≤ '9') ∧ Word.decimalValue digits = n

theorem all_isDigit_iff {digits : List Char} :
    digits.all Char.isDigit = true ↔ ∀ c ∈ digits, '0' ≤ c ∧ c ≤ '9' := by
  simp only [List.all_eq_true, Char.isDigit, Bool.and_eq_true, decide_eq_true_eq]
  rfl

/-- The last letter has to be an m, and what stands before it has to be digits. -/
theorem digits?_concat (front : List Char) (last : Char) :
    digits? (front ++ [last]) =
      if last = 'm' ∧ front ≠ [] ∧ front.all Char.isDigit then some front else none := by
  by_cases hlast : last = 'm'
  · subst hlast
    simp only [digits?, List.getLast?_concat, List.dropLast_concat, true_and]
  · rw [if_neg fun h => hlast h.1, digits?, List.getLast?_concat]
    split
    · rename_i heq
      exact absurd (Option.some.inj heq) hlast
    · rfl

/-- A text of the right form is its digits and the letter. -/
theorem digits?_eq_some_iff {text digits : List Char} :
    digits? text = some digits ↔
      text = digits ++ ['m'] ∧ digits ≠ [] ∧ ∀ c ∈ digits, '0' ≤ c ∧ c ≤ '9' := by
  rcases List.eq_nil_or_concat text with rfl | ⟨front, last, rfl⟩
  · simp [digits?]
  · rw [List.concat_eq_append, digits?_concat, List.append_singleton_inj, ← all_isDigit_iff]
    constructor
    · intro h
      obtain ⟨⟨hlast, hfront⟩, hdigits⟩ := Option.ite_none_right_eq_some.1 h
      obtain rfl : front = digits := Option.some.inj hdigits
      exact ⟨⟨rfl, hlast⟩, hfront⟩
    · rintro ⟨⟨rfl, hlast⟩, hfront⟩
      exact if_pos ⟨hlast, hfront⟩

/-- A number of minutes is an interval exactly if it is in the range. -/
theorem read_of_writes (h : Writes value n) :
    read value =
      if leastMinutes ≤ n ∧ n ≤ mostMinutes then .ok (60 * n) else .error .outOfRange := by
  obtain ⟨digits, rfl, hsome, hdigits, rfl⟩ := h
  have hform : digits? (digits ++ ['m']) = some digits :=
    digits?_eq_some_iff.2 ⟨rfl, hsome, hdigits⟩
  simp only [read, Json.Value.asString?, Option.bind_some, String.toList_ofList, hform]
  cases hword : Word.ofDigits? digits with
  | none =>
    -- A number for which there is no word is far out of the range.
    have hlarge := Word.ofDigits?_eq_none_iff.1 hword
    have hrange : ¬ (leastMinutes ≤ Word.decimalValue digits ∧
        Word.decimalValue digits ≤ mostMinutes) := by
      simp only [mostMinutes]
      omega
    rw [if_neg hrange]
  | some word =>
    simp only [Word.ofDigits?_eq_some_iff.1 hword]

/-- Whatever is no number of minutes is refused as such. -/
theorem read_of_not_writes (h : ∀ n, ¬ Writes value n) : read value = .error .malformed := by
  have hnone : (value.asString?.bind fun text => digits? text.toList) = none := by
    rw [Option.eq_none_iff_forall_ne_some]
    intro digits hdigits
    obtain ⟨text, htext, hform⟩ := Option.bind_eq_some_iff.1 hdigits
    obtain ⟨heq, hsome, hdecimal⟩ := digits?_eq_some_iff.1 hform
    cases value with
    | string given =>
      obtain rfl : given = text := Option.some.inj htext
      refine h _ ⟨digits, ?_, hsome, hdecimal, rfl⟩
      rw [← heq, String.ofList_toList]
    | _ => cases htext
  rw [read, hnone]

theorem read_eq_ok_iff {seconds : Nat} :
    read value = .ok seconds ↔
      ∃ n, Writes value n ∧ leastMinutes ≤ n ∧ n ≤ mostMinutes ∧ seconds = 60 * n := by
  constructor
  · intro hread
    by_cases hwrites : ∃ n, Writes value n
    · obtain ⟨n, hwrites⟩ := hwrites
      rw [read_of_writes hwrites] at hread
      split at hread
      · rename_i hrange
        cases hread
        exact ⟨n, hwrites, hrange.1, hrange.2, rfl⟩
      · cases hread
    · rw [read_of_not_writes (not_exists.1 hwrites)] at hread
      cases hread
  · rintro ⟨n, hwrites, hleast, hmost, rfl⟩
    rw [read_of_writes hwrites, if_pos ⟨hleast, hmost⟩]

/-- A setting gives an interval exactly if it is there and is a number of minutes from one to
thirty, however many digits that is written with, and then the interval is sixty times that number
of seconds.  Every other setting, and none, gives no interval. -/
theorem interval_grammar (value : Option Json.Value) :
    (∀ seconds, seconds? value = some seconds ↔
      ∃ given n, value = some given ∧ Writes given n ∧ 1 ≤ n ∧ n ≤ 30 ∧ seconds = 60 * n) ∧
    (seconds? value = none ↔ ∀ given n, value = some given → Writes given n → n = 0 ∨ 30 < n) := by
  have hsome : ∀ seconds, seconds? value = some seconds ↔
      ∃ given n, value = some given ∧ Writes given n ∧ 1 ≤ n ∧ n ≤ 30 ∧ seconds = 60 * n := by
    intro seconds
    simp only [seconds?_eq_some_iff, read_eq_ok_iff, leastMinutes, mostMinutes, exists_and_left]
  refine ⟨hsome, ?_⟩
  rw [Option.eq_none_iff_forall_ne_some]
  constructor
  · intro hnone given n hgiven hwrites
    by_contra hrange
    exact hnone (60 * n) ((hsome _).2 ⟨given, n, hgiven, hwrites, by omega, by omega, rfl⟩)
  · intro hout seconds hseconds
    obtain ⟨given, n, hgiven, hwrites, hleast, hmost, -⟩ := (hsome seconds).1 hseconds
    have := hout given n hgiven hwrites
    omega

example : seconds? (some (.string "0000000000000000000000000030m")) = some 1800 := by
  decide +kernel

/-- The digits write a number that is five more than `2 ^ 64`. -/
example : seconds? (some (.string "18446744073709551621m")) = none := by decide +kernel

end PerfRelay.Interval
