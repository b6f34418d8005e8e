import Mathlib.Algebra.BigOperators.Group.Finset.Basic
import PerfRelay.Runner.Thread

/-!
# The cadence of a periodic task

A thread plans its next run time and again, and reads the interval anew each time.  It comes back
when it has waited at least as long as it was told, and has run its task for as long as that takes.
One step of the schedule alone does not bound the wait: what does is that the planned run is never
later than the moment at which the thread plans the one after it.

Main results:

- Theorem `Timely.nextRunAt_le`: what a planned run and the next planning have to do with each
  other, for every sequence of intervals and moments.
- Theorem `Timely.cadence`: bounds for the waits, no drift, and the way back after a delay.
- Theorem `planning_after_laps`: the thread of a task goes by such a timetable.
-/

namespace PerfRelay

/-- When a schedule begins, which intervals are read and when the next run is planned. -/
structure Timetable where
  start : Nat
  /-- The interval that is read when the schedule begins. -/
  first : Nat
  /-- The interval that is read before each planning. -/
  interval : Nat → Nat
  /-- The moment of each planning. -/
  now : Nat → Nat

namespace Timetable

/-- The schedule that each planning finds. -/
def schedule (table : Timetable) : Nat → Schedule
  | 0 => .start table.start table.first
  | k + 1 =>
    ({ table.schedule k with interval := table.interval k }.nextWait (table.now k)).2

/-- The wait that each planning gives. -/
def wait (table : Timetable) (k : Nat) : Nat :=
  ({ table.schedule k with interval := table.interval k }.nextWait (table.now k)).1

/-- The run that each planning leads to. -/
def nextRunAt (table : Timetable) (k : Nat) : Nat := (table.schedule (k + 1)).nextRunAt

/-- The slot that a planning moves on to, if that is still to come. -/
def slot (table : Timetable) (k : Nat) : Nat :=
  (table.schedule k).nextRunAt + table.interval k

/-- A planning finds the schedule behind: the next slot is not still to come. -/
def Behind (table : Timetable) (k : Nat) : Prop := table.slot k ≤ table.now k

instance (table : Timetable) (k : Nat) : Decidable (table.Behind k) :=
  inferInstanceAs (Decidable (table.slot k ≤ table.now k))

/-- The first planning is not before the beginning, and none is before the last wait is over. -/
structure Timely (table : Timetable) : Prop where
  start_le : table.start ≤ table.now 0
  wait_le : ∀ k, table.now k + table.wait k ≤ table.now (k + 1)

variable {table : Timetable} {k : Nat}

/-! ## One planning -/

theorem wait_of_behind (h : table.Behind k) : table.wait k = catchUpWait := by
  have hdue : (table.schedule k).nextRunAt + table.interval k ≤ table.now k := h
  simp only [wait, Schedule.nextWait, if_pos hdue]

theorem nextRunAt_of_behind (h : table.Behind k) : table.nextRunAt k = table.now k := by
  have hdue : (table.schedule k).nextRunAt + table.interval k ≤ table.now k := h
  simp only [nextRunAt, schedule, Schedule.nextWait, if_pos hdue]

theorem wait_of_not_behind (h : ¬ table.Behind k) :
    table.wait k = table.slot k - table.now k := by
  have hdue : ¬ (table.schedule k).nextRunAt + table.interval k ≤ table.now k := h
  simp only [wait, slot, Schedule.nextWait, if_neg hdue]

theorem nextRunAt_of_not_behind (h : ¬ table.Behind k) : table.nextRunAt k = table.slot k := by
  have hdue : ¬ (table.schedule k).nextRunAt + table.interval k ≤ table.now k := h
  simp only [nextRunAt, slot, schedule, Schedule.nextWait, if_neg hdue]

theorem slot_succ (table : Timetable) (k : Nat) :
    table.slot (k + 1) = table.nextRunAt k + table.interval (k + 1) :=
  rfl

theorem now_le_nextRunAt (table : Timetable) (k : Nat) : table.now k ≤ table.nextRunAt k :=
  Schedule.now_le_nextRunAt _ _

theorem nextRunAt_le_add_wait (table : Timetable) (k : Nat) :
    table.nextRunAt k ≤ table.now k + table.wait k := by
  by_cases h : table.Behind k
  · rw [nextRunAt_of_behind h]
    exact Nat.le_add_right _ _
  · rw [nextRunAt_of_not_behind h, wait_of_not_behind h]
    omega

/-- The short wait for a run at once is what a schedule that has fallen behind gives, and nothing
else gives it. -/
theorem behind_iff :
    table.Behind k ↔ table.wait k = catchUpWait ∧ table.nextRunAt k = table.now k := by
  constructor
  · intro h
    exact ⟨wait_of_behind h, nextRunAt_of_behind h⟩
  · rintro ⟨-, hnext⟩
    by_contra h
    have hslot : table.slot k = table.now k := (nextRunAt_of_not_behind h).symm.trans hnext
    exact h (Nat.le_of_eq hslot)

/-! ## Every planning -/

namespace Timely

/-- A planned run is not later than the next planning. -/
theorem nextRunAt_le (h : table.Timely) (k : Nat) : table.nextRunAt k ≤ table.now (k + 1) :=
  Nat.le_trans (table.nextRunAt_le_add_wait k) (h.wait_le k)

/-- No planning finds a run that is still to come. -/
theorem schedule_le (h : table.Timely) (k : Nat) :
    (table.schedule k).nextRunAt ≤ table.now k := by
  cases k with
  | zero => exact h.start_le
  | succ k => exact h.nextRunAt_le k

theorem wait_le_max (h : table.Timely) (k : Nat) :
    table.wait k ≤ max (table.interval k) catchUpWait := by
  by_cases hbehind : table.Behind k
  · rw [wait_of_behind hbehind]
    exact Nat.le_max_right _ _
  · have hfound : (table.schedule k).nextRunAt ≤ table.now k := h.schedule_le k
    have hwait : table.wait k ≤ table.interval k := by
      rw [wait_of_not_behind hbehind, slot]
      omega
    exact Nat.le_trans hwait (Nat.le_max_left _ _)

/-- The way back after a delay: the next planning counts from the moment of the last one. -/
theorem nextRunAt_after_behind (hbehind : table.Behind k)
    (hsoon : table.now (k + 1) < table.now k + table.interval (k + 1)) :
    ¬ table.Behind (k + 1) ∧ table.nextRunAt (k + 1) = table.now k + table.interval (k + 1) := by
  have hslot : table.slot (k + 1) = table.now k + table.interval (k + 1) := by
    rw [slot_succ, nextRunAt_of_behind hbehind]
  have hnext : ¬ table.Behind (k + 1) := by
    rw [Behind, hslot]
    omega
  exact ⟨hnext, (nextRunAt_of_not_behind hnext).trans hslot⟩

end Timely

/-- As long as no planning finds the schedule behind, no drift adds up, however long the runs take.
The induction is on the plannings: each one moves on by its interval. -/
theorem nextRunAt_eq_sum (h : ∀ j ≤ k, ¬ table.Behind j) :
    table.nextRunAt k = table.start + ∑ j ∈ Finset.range (k + 1), table.interval j := by
  induction k with
  | zero =>
    rw [nextRunAt_of_not_behind (h 0 (Nat.le_refl 0)), Finset.sum_range_one]
    rfl
  | succ k ih =>
    have hbefore : ∀ j ≤ k, ¬ table.Behind j := by
      intro j hj
      exact h j (Nat.le_succ_of_le hj)
    rw [nextRunAt_of_not_behind (h (k + 1) (Nat.le_refl _)), slot_succ, ih hbefore,
      Finset.sum_range_succ _ (k + 1), Nat.add_assoc]

/-- What every planning gives. -/
theorem Timely.cadence (h : table.Timely) (k : Nat) :
    (0 < table.wait k ∧ table.wait k ≤ max (table.interval k) catchUpWait) ∧
    (table.now k ≤ table.nextRunAt k ∧ table.nextRunAt k ≤ table.now (k + 1) ∧
      (table.wait k = catchUpWait ∧ table.nextRunAt k = table.now k ↔ table.Behind k)) ∧
    ((∀ j ≤ k, ¬ table.Behind j) →
      table.nextRunAt k = table.start + ∑ j ∈ Finset.range (k + 1), table.interval j) ∧
    (table.Behind k → table.now (k + 1) < table.now k + table.interval (k + 1) →
      ¬ table.Behind (k + 1) ∧
        table.nextRunAt (k + 1) = table.now k + table.interval (k + 1)) := by
  refine ⟨⟨?_, h.wait_le_max k⟩, ⟨?_, h.nextRunAt_le k, behind_iff.symm⟩, ?_, ?_⟩
  · exact Schedule.nextWait_pos _ _
  · exact table.now_le_nextRunAt k
  · exact nextRunAt_eq_sum
  · exact Timely.nextRunAt_after_behind

/-- A task that is to run every minute, whose first run takes so long that the second planning
comes after 200 seconds. -/
def overrun : Timetable where
  start := 0
  first := 60000000
  interval _ := 60000000
  now
    | 0 => 0
    | 1 => 200000000
    | 2 => 201000000
    | k + 3 => 260000000 + k * 60000000

theorem overrun_timely : overrun.Timely := by
  -- From the fourth planning on every one is on time.
  have hbehind : ∀ k, (overrun.schedule (k + 3)).nextRunAt = overrun.now (k + 3) →
      ¬ overrun.Behind (k + 3) := by
    intro k hfound
    rw [Behind, slot, hfound]
    simp [overrun]
  have hfound : ∀ k, (overrun.schedule (k + 3)).nextRunAt = overrun.now (k + 3) := by
    intro k
    induction k with
    | zero => rfl
    | succ k ih =>
      have hnext := nextRunAt_of_not_behind (hbehind k ih)
      rw [slot, ih] at hnext
      rw [show k + 1 + 3 = (k + 3) + 1 from rfl, ← nextRunAt, hnext]
      simp only [overrun]
      omega
  refine ⟨Nat.le_refl 0, ?_⟩
  rintro (_ | _ | _ | k)
  · decide
  · decide
  · decide
  · rw [wait_of_not_behind (hbehind k (hfound k)), slot, hfound]
    simp only [overrun]
    omega

/-- The second planning of a task that is late is soon followed by a third one, which is on time. -/
theorem cadence_overrun :
    overrun.Timely ∧ overrun.Behind 1 ∧ overrun.wait 1 ≤ max (overrun.interval 1) catchUpWait ∧
      overrun.nextRunAt 1 = 200000000 ∧ overrun.nextRunAt 2 = 260000000 := by
  have hbehind : overrun.Behind 1 := by decide
  have hsoon : overrun.now 2 < overrun.now 1 + overrun.interval 2 := by decide
  obtain ⟨hwait, ⟨-, -, hpulled⟩, -, hback⟩ := overrun_timely.cadence 1
  exact ⟨overrun_timely, hbehind, hwait.2, (hpulled.2 hbehind).2, (hback hbehind hsoon).2⟩

end Timetable

/-! ## The thread of a task -/

namespace Runner

variable {τ ω : Type} [PeriodicTask τ ω]

/-- Once around while nobody wakes the thread: it plans, waits, decides and runs the task. -/
def lap (planned ran : Moment) (runner : Runner τ) : Runner τ :=
  let waiting := (runner.threadStep .timeout planned).value
  let deciding := (waiting.threadStep .timeout ran).value
  let running := (deciding.threadStep .timeout ran).value
  (running.threadStep .timeout ran).value

/-- The thread before each lap, with the moments of its plannings and of its runs. -/
def laps (planned ran : Nat → Moment) (runner : Runner τ) : Nat → Runner τ
  | 0 => runner
  | k + 1 => (laps planned ran runner k).lap (planned k) (ran k)

variable {runner : Runner τ} {schedule : Schedule} {interval : Nat}

theorem threadStep_launching (signal : Signal) (moment : Moment) {first : Nat}
    (hphase : runner.phase = some .launching)
    (hinterval : (PeriodicTask.interval runner.task).1 = some first) :
    (runner.threadStep signal moment).value.phase =
        some (.planning (.start moment.now first)) ∧
      (runner.threadStep signal moment).value.stopping = runner.stopping := by
  simp only [threadStep, hphase, launch]
  split
  · rename_i hnone
    rw [hnone] at hinterval
    cases hinterval
  · rename_i hsome
    rw [hsome, Option.some.injEq] at hinterval
    rw [hinterval]
    exact ⟨rfl, rfl⟩

theorem threadStep_planning (signal : Signal) (moment : Moment)
    (hphase : runner.phase = some (.planning schedule))
    (hinterval : (PeriodicTask.interval runner.task).1 = some interval) :
    (runner.threadStep signal moment).value.phase =
        some (.waiting ({ schedule with interval }.nextWait moment.now).2
          ({ schedule with interval }.nextWait moment.now).1) ∧
      (runner.threadStep signal moment).value.stopping = runner.stopping := by
  simp only [threadStep, hphase, plan]
  split
  · rename_i hnone
    rw [hnone] at hinterval
    cases hinterval
  · rename_i hsome
    rw [hsome, Option.some.injEq] at hinterval
    rw [hinterval]
    exact ⟨rfl, rfl⟩

theorem threadStep_waiting (moment : Moment) {wait : Nat}
    (hphase : runner.phase = some (.waiting schedule wait)) :
    (runner.threadStep .timeout moment).value.phase = some (.deciding schedule false) ∧
      (runner.threadStep .timeout moment).value.stopping = runner.stopping := by
  simp only [threadStep, hphase]
  exact ⟨rfl, rfl⟩

theorem threadStep_deciding (signal : Signal) (moment : Moment)
    (hphase : runner.phase = some (.deciding schedule false))
    (hstopping : runner.stopping = false) :
    (runner.threadStep signal moment).value.phase = some (.running schedule) ∧
      (runner.threadStep signal moment).value.stopping = false := by
  have hgoesOn : ¬ (false || runner.stopping) = true := by simp [hstopping]
  simp only [threadStep, hphase, choose, if_neg hgoesOn]
  exact ⟨rfl, hstopping⟩

theorem threadStep_running (signal : Signal) (moment : Moment)
    (hphase : runner.phase = some (.running schedule)) :
    (runner.threadStep signal moment).value.phase = some (.planning schedule) ∧
      (runner.threadStep signal moment).value.stopping = runner.stopping := by
  simp only [threadStep, hphase, runTask, Noted.value_bind]
  split <;> exact ⟨rfl, rfl⟩

/-- A lap comes back to planning with the schedule that the planning in it has made. -/
theorem lap_planning {planned ran : Moment} (hphase : runner.phase = some (.planning schedule))
    (hstopping : runner.stopping = false)
    (hinterval : (PeriodicTask.interval runner.task).1 = some interval) :
    (runner.lap planned ran).phase =
        some (.planning ({ schedule with interval }.nextWait planned.now).2) ∧
      (runner.lap planned ran).stopping = false := by
  obtain ⟨hwaiting, hstop⟩ := threadStep_planning .timeout planned hphase hinterval
  obtain ⟨hdeciding, hstop'⟩ := threadStep_waiting ran hwaiting
  obtain ⟨hrunning, hstop''⟩ := threadStep_deciding .timeout ran hdeciding
    (hstop'.trans (hstop.trans hstopping))
  obtain ⟨hplanning, hend⟩ := threadStep_running .timeout ran hrunning
  exact ⟨hplanning, hend.trans hstop''⟩

/-- From its launch on, the thread goes by the timetable of its plannings: before each lap it has
the schedule of the timetable, and in the lap it waits as long as that says. -/
theorem planning_after_laps {launched : Moment} {planned ran : Nat → Moment} {first : Nat}
    {interval : Nat → Nat} (hphase : runner.phase = some .launching)
    (hstopping : runner.stopping = false)
    (hfirst : (PeriodicTask.interval runner.task).1 = some first)
    (hinterval : ∀ k, (PeriodicTask.interval
      (laps planned ran (runner.threadStep .timeout launched).value k).task).1 =
        some (interval k)) (k : Nat) :
    let table : Timetable := ⟨launched.now, first, interval, fun k => (planned k).now⟩
    let before := laps planned ran (runner.threadStep .timeout launched).value k
    before.phase = some (.planning (table.schedule k)) ∧
      (before.threadStep .timeout (planned k)).value.phase =
        some (.waiting (table.schedule (k + 1)) (table.wait k)) := by
  intro table before
  have hlaps : before.phase = some (.planning (table.schedule k)) ∧ before.stopping = false := by
    induction k with
    | zero =>
      obtain ⟨hplanning, hsame⟩ := threadStep_launching .timeout launched hphase hfirst
      exact ⟨hplanning, hsame.trans hstopping⟩
    | succ k ih => exact lap_planning ih.1 ih.2 (hinterval k)
  exact ⟨hlaps.1, (threadStep_planning .timeout (planned k) hlaps.1 (hinterval k)).1⟩

end Runner

end PerfRelay
