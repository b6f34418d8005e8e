/-!
# Record counts

Records are counted over windows of time.  The first look at the count when a window is over takes
the count away and begins a new window.

Times are numbers of microseconds since some moment, and a time before the beginning of a window
counts as no time at all.

Main results:

- Theorem `takeIfDue_isSome_iff`: a count is taken exactly when the window is over.
-/

namespace PerfRelay

/-- One second in microseconds. -/
def second : Nat := 1000000

/-- The greatest count. -/
def greatestCount : Nat := Nat.pow 2 64 - 1

/-- The number of records since a window began. -/
structure Counters where
  recordCount : Nat
  windowStartedAt : Nat
deriving DecidableEq, Repr, Inhabited

namespace Counters

/-- A new window. -/
def start (now : Nat) : Counters := ⟨0, now⟩

/-- Counts records, as far as the greatest count. -/
def add (counters : Counters) (records : Nat) : Counters :=
  { counters with recordCount := min greatestCount (counters.recordCount + records) }

/-- Takes the count if the window is over, and begins a new window then. -/
def takeIfDue (counters : Counters) (now window : Nat) : Option Nat × Counters :=
  if now - counters.windowStartedAt < window then (none, counters)
  else (some counters.recordCount, start now)

theorem takeIfDue_isSome_iff {counters : Counters} {now window : Nat} :
    (counters.takeIfDue now window).1.isSome = true ↔
      window ≤ now - counters.windowStartedAt := by
  unfold takeIfDue
  split
  · simp only [Option.isSome_none, Bool.false_eq_true, false_iff]; omega
  · simp only [Option.isSome_some, true_iff]; omega

end Counters

end PerfRelay
