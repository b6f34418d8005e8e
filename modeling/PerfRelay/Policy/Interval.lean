import PerfRelay.Configuration.Settings
import PerfRelay.Journal
import PerfRelay.Json.Printer
import PerfRelay.Text.Word

/-!
# The interval setting

The interval between two collections is written as a number of minutes followed by the letter m,
from one minute to thirty.  The number may have leading zeros, and one that is too long for a word
is out of range like any other.

Main results:

- Theorem `read_eq_ok`: an interval that was read is a whole number of minutes in the range.
- Theorem `seconds?_eq_some_iff`: a setting gives an interval exactly when it is there and is read.
-/

namespace PerfRelay.Interval

/-- The interval in seconds where no other one is set. -/
def defaultSeconds : Nat := 60

/-- The fewest minutes between two collections. -/
def leastMinutes : Nat := 1

/-- The most minutes between two collections. -/
def mostMinutes : Nat := 30

/-- The digits of a number of minutes in a text of the right form, however many they are. -/
def digits? (text : List Char) : Option (List Char) :=
  match text.getLast? with
  | some 'm' =>
    let digits := text.dropLast
    if digits ≠ [] ∧ digits.all Char.isDigit then some digits else none
  | _ => none

/-- Why a setting is no interval. -/
inductive Fault where
  /-- It is not a number of minutes. -/
  | malformed
  /-- It is a number of minutes outside the range. -/
  | outOfRange
deriving DecidableEq, Repr

/-- The interval in seconds that a setting stands for. -/
def read (value : Json.Value) : Except Fault Nat :=
  match value.asString?.bind fun text => digits? text.toList with
  | none => .error .malformed
  | some digits =>
    match Word.ofDigits? digits with
    | none => .error .outOfRange
    | some n =>
      if leastMinutes ≤ n.toNat ∧ n.toNat ≤ mostMinutes then .ok (60 * n.toNat)
      else .error .outOfRange

/-- An interval that was read is a whole number of minutes in the range. -/
theorem read_eq_ok {value : Json.Value} {seconds : Nat} (h : read value = .ok seconds) :
    ∃ n, leastMinutes ≤ n ∧ n ≤ mostMinutes ∧ seconds = 60 * n := by
  unfold read at h
  split at h
  · cases h
  · split at h
    · cases h
    · split at h
      · rename_i n _ hrange
        cases h
        exact ⟨n.toNat, hrange.1, hrange.2, rfl⟩
      · cases h

/-- What is noted about a setting that is no interval. -/
def Fault.note (value : Json.Value) : Fault → Entry
  | .malformed =>
    .warn s!"data collection interval {value.text} is invalid, using {defaultSeconds}s"
  | .outOfRange =>
    .warn (s!"data collection interval {value.text} is not within " ++
      s!"{leastMinutes}m..{mostMinutes}m, using {defaultSeconds}s")

/-- The name of the setting. -/
def settingName : String := "interval"

/-- The interval in seconds in a setting that may be absent, if there is one. -/
def seconds? (value : Option Json.Value) : Option Nat :=
  value.bind fun value => (read value).toOption

theorem seconds?_eq_some_iff {value : Option Json.Value} {seconds : Nat} :
    seconds? value = some seconds ↔ ∃ given, value = some given ∧ read given = .ok seconds := by
  rw [seconds?, Option.bind_eq_some_iff]
  apply exists_congr
  intro given
  cases read given <;> simp [Except.toOption]

/-- The interval in seconds that the settings ask for. -/
def ofSettings (settings : Settings) : Nat :=
  (seconds? (settings.get? settingName)).getD defaultSeconds

/-- What is noted about the interval setting. -/
def notes (settings : Settings) : List Entry :=
  match settings.get? settingName with
  | none => []
  | some value =>
    match read value with
    | .ok _ => []
    | .error fault => [fault.note value]

end PerfRelay.Interval
