import PerfRelay.Decimal.Layout

/-!
# Clocks

Two clocks are read at the beginning of a collection: one that only ever moves forward, for
measuring how long ago something was, and the calendar, for the stamps of batches.

Main results:

- Theorem `stamp_epoch`: the stamp of the first second of the calendar.
-/

namespace PerfRelay

/-- A moment on both clocks. -/
structure Moment where
  /-- Microseconds on the clock that only moves forward. -/
  now : Nat
  /-- Seconds since the beginning of 1970, in UTC. -/
  utc : Nat
deriving DecidableEq, Repr, Inhabited

namespace Calendar

/-- The year, month and day of a number of days since the beginning of 1970.  Years are counted from
March on, so that the leap day is the last one, in eras of 400 years. -/
def dateOfDays (days : Nat) : Nat × Nat × Nat :=
  let shifted := days + 719468
  let era := shifted / 146097
  let dayOfEra := shifted % 146097
  let yearOfEra := (dayOfEra - dayOfEra / 1460 + dayOfEra / 36524 - dayOfEra / 146096) / 365
  let dayOfYear := dayOfEra - (365 * yearOfEra + yearOfEra / 4 - yearOfEra / 100)
  let month := (5 * dayOfYear + 2) / 153
  let day := dayOfYear - (153 * month + 2) / 5 + 1
  let year := yearOfEra + 400 * era
  if month < 10 then (year, month + 3, day) else (year + 1, month - 9, day)

/-- A number in decimal digits, with zeros in front up to a width. -/
def padded (width n : Nat) : String :=
  let digits := Nat.toDigits 10 n
  String.ofList (List.replicate (width - digits.length) '0' ++ digits)

/-- The stamp of a second, such as `2026-03-01T08:05:00Z`. -/
def stamp (utc : Nat) : String :=
  let (year, month, day) := dateOfDays (utc / 86400)
  let second := utc % 86400
  s!"{padded 4 year}-{padded 2 month}-{padded 2 day}T" ++
    s!"{padded 2 (second / 3600)}:{padded 2 (second / 60 % 60)}:{padded 2 (second % 60)}Z"

theorem stamp_epoch : stamp 0 = "1970-01-01T00:00:00Z" := by decide +kernel

example : stamp 951826154 = "2000-02-29T12:09:14Z" := by decide +kernel

example : stamp 1767225599 = "2025-12-31T23:59:59Z" := by decide +kernel

end Calendar

/-- A duration in microseconds as a number of seconds. -/
def secondsOf (microseconds : Nat) : Binary64 :=
  (Binary64.ofNat (microseconds / 1000000)).add
    ((Binary64.ofRatio? false (microseconds % 1000000) 1000000).getD (.zero false))

/-- The text of a duration in seconds. -/
def secondsText (microseconds : Nat) : String :=
  String.ofList (DecimalLayout.writtenOut.render (secondsOf microseconds))

example : secondsText 20000 = "0.02" := by decide +kernel

example : secondsText 3600000000 = "3600" := by decide +kernel

end PerfRelay
