/-!
# Schedules

A task is due once per interval.  Each step of the schedule moves the next due time one interval
forward, however long the last run took, so that no drift adds up.  A schedule that has fallen
behind is pulled up to the present, and the next run follows after a short wait.

Times and waits are numbers of microseconds without a bound: there is no instant after which a clock
ends, and adding an interval to a time always gives one.

Main results:

- Theorem `nextWait_pos`: there is always something to wait for.
- Theorem `now_le_nextRunAt`: after a step the next run is not in the past.
-/

namespace PerfRelay

/-- The wait of a schedule that has fallen behind: one second. -/
def catchUpWait : Nat := 1000000

/-- When a task runs next. -/
structure Schedule where
  nextRunAt : Nat
  interval : Nat
  /-- Whether there are no more runs. -/
  finished : Bool
deriving DecidableEq, Repr

namespace Schedule

/-- A schedule that begins now. -/
def start (now interval : Nat) : Schedule := ⟨now, interval, false⟩

/-- Moves the schedule one interval forward and tells how long to wait. -/
def nextWait (schedule : Schedule) (now : Nat) : Nat × Schedule :=
  let due := schedule.nextRunAt + schedule.interval
  if due ≤ now then (catchUpWait, { schedule with nextRunAt := now })
  else (due - now, { schedule with nextRunAt := due })

theorem nextWait_pos (schedule : Schedule) (now : Nat) : 0 < (schedule.nextWait now).1 := by
  simp only [nextWait]
  split
  · exact Nat.succ_pos _
  · simp only; omega

theorem now_le_nextRunAt (schedule : Schedule) (now : Nat) :
    now ≤ (schedule.nextWait now).2.nextRunAt := by
  simp only [nextWait]
  split
  · exact Nat.le_refl _
  · simp only; omega

end Schedule

end PerfRelay
