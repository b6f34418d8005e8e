import PerfRelay.Runner.Thread

/-!
# A thread and its owner side by side

The owner calls and the thread moves, in any order that both allow.  A call to stop is three moves
of the owner: it stores the flag, sends the wake-up message, and comes back once the thread has
ended.  Between looking at the flag and beginning a run the owner may move, so a run has a beginning
of its own.

Main results:

- Theorem `threadStep_advances`: what a step of the thread can do.
- Theorem `Leads.append`: one run of moves after another.
-/

namespace PerfRelay

namespace Runner

variable {τ ω : Type} [PeriodicTask τ ω]

/-! ## Steps of the thread -/

/-- What a step of the thread does to it. -/
inductive Advances (runner : Runner τ) (signal : Signal) : Runner τ → Prop where
  /-- It reads its first interval. -/
  | launches {task : τ} {schedule : Schedule} (hphase : runner.phase = some .launching) :
      Advances runner signal { runner with task, phase := some (.planning schedule) }
  /-- It plans. -/
  | plans {task : τ} {schedule next : Schedule} {wait : Nat}
      (hphase : runner.phase = some (.planning schedule)) :
      Advances runner signal { runner with task, phase := some (.waiting next wait) }
  /-- It breaks off, because it cannot read the interval. -/
  | breaksOff {task : τ} (hphase : runner.phase ≠ none) (hended : runner.hasEnded = false)
      (hinterval : (PeriodicTask.interval runner.task).1 = none) :
      Advances runner signal { runner with task, phase := some .crashed }
  /-- It has waited in vain. -/
  | timesOut {schedule : Schedule} {wait : Nat} (hsignal : signal = .timeout)
      (hphase : runner.phase = some (.waiting schedule wait)) :
      Advances runner signal { runner with phase := some (.deciding schedule false) }
  /-- It receives a message. -/
  | receives {schedule : Schedule} {wait : Nat} (hsignal : signal = .message)
      (hphase : runner.phase = some (.waiting schedule wait)) :
      Advances runner signal
        { runner with phase := some (.deciding schedule true), messages := runner.messages - 1 }
  /-- It finds that there will be no message. -/
  | loses {schedule : Schedule} {wait : Nat} (hsignal : signal = .disconnected)
      (hphase : runner.phase = some (.waiting schedule wait)) :
      Advances runner signal { runner with phase := some (.deciding schedule true) }
  /-- It ends. -/
  | ends {schedule : Schedule} {woken : Bool}
      (hphase : runner.phase = some (.deciding schedule woken))
      (hstops : woken = true ∨ runner.stopping = true) :
      Advances runner signal { runner with phase := some .exited }
  /-- It is about to begin a run. -/
  | goesOn {schedule : Schedule} (hphase : runner.phase = some (.deciding schedule false))
      (hstopping : runner.stopping = false) :
      Advances runner signal { runner with phase := some (.running schedule) }
  /-- It has completed a run. -/
  | completes {task : τ} {schedule : Schedule}
      (hphase : runner.phase = some (.running schedule)) :
      Advances runner signal { runner with task, phase := some (.planning schedule) }
  /-- There is no thread, or it has ended. -/
  | rests (hphase : runner.phase = none ∨ runner.hasEnded = true) :
      Advances runner signal runner

theorem runTask_value (moment : Moment) (schedule : Schedule) (runner : Runner τ) :
    (runner.runTask moment schedule).value =
      { runner with
        task := (PeriodicTask.run moment runner.task).value.2
        phase := some (.planning schedule) } := by
  simp only [runTask, Noted.value_bind]
  split <;> rfl

/-- What a step of the thread can do. -/
theorem threadStep_advances (signal : Signal) (moment : Moment) (runner : Runner τ) :
    runner.Advances signal (runner.threadStep signal moment).value := by
  unfold threadStep
  split
  · rename_i hphase
    unfold launch
    split
    · rename_i hinterval
      exact .breaksOff (by simp [hphase]) (by rw [hasEnded, hphase]) (by rw [hinterval])
    · exact .launches hphase
  · rename_i hphase
    rw [Noted.value_pure]
    unfold plan
    split
    · rename_i hinterval
      exact .breaksOff (by simp [hphase]) (by rw [hasEnded, hphase]) (by rw [hinterval])
    · exact .plans hphase
  · rename_i hphase
    cases signal with
    | timeout => exact .timesOut rfl hphase
    | message => exact .receives rfl hphase
    | disconnected => exact .loses rfl hphase
  · rename_i schedule woken hphase
    unfold choose
    split
    · rename_i hstops
      rw [Bool.or_eq_true] at hstops
      exact .ends hphase hstops
    · rename_i hgoesOn
      rw [Bool.or_eq_true, not_or, Bool.not_eq_true, Bool.not_eq_true] at hgoesOn
      obtain ⟨rfl, hstopping⟩ := hgoesOn
      exact .goesOn hphase hstopping
  · rename_i hphase
    rw [runTask_value]
    exact .completes hphase
  · rename_i hphase
    exact .rests (.inr (by rw [hasEnded, hphase]))
  · rename_i hphase
    exact .rests (.inr (by rw [hasEnded, hphase]))
  · rename_i hphase
    exact .rests (.inl hphase)

/-- A step of the thread leaves the owner alone, and what that has told it. -/
theorem Advances.frame {runner next : Runner τ} {signal : Signal}
    (h : runner.Advances signal next) :
    next.owner = runner.owner ∧ next.stopping = runner.stopping := by
  cases h <;> exact ⟨rfl, rfl⟩

/-- Whether the owner is in a call that stops the thread. -/
def isStopping (runner : Runner τ) : Bool :=
  runner.owner == .flagging || runner.owner == .joining

/-- Whether the thread is about to run the task, or runs it. -/
def isAtRun (runner : Runner τ) : Bool :=
  match runner.phase with
  | some (.running _) => true
  | _ => false

/-- Whether the thread can take a step before a run and after it; a wait has to be able to end with
the signal. -/
def canStep (runner : Runner τ) (signal : Signal) : Bool :=
  match runner.phase with
  | some .launching => true
  | some (.planning _) => true
  | some (.waiting _ _) => runner.canEnd signal
  | some (.deciding _ _) => true
  | _ => false

end Runner

/-! ## Moves -/

/-- A runner, and whether a run of its task has begun that has not ended yet. -/
structure Life (τ : Type) where
  runner : Runner τ
  inRun : Bool

/-- What shows of a move. -/
inductive Mark (τ : Type) where
  /-- The owner called for a start. -/
  | started
  /-- The owner stored the flag. -/
  | flagged
  /-- The owner sent the wake-up message. -/
  | woke
  /-- A call to stop came back, perhaps with the task. -/
  | returned (result : Option τ)
  /-- A run began. -/
  | began
  /-- A run ended, one way or another. -/
  | ended
  /-- The thread took some other step. -/
  | stepped

namespace Mark

variable {τ : Type}

/-- Whether a run began. -/
@[simp]
def isBegan : Mark τ → Bool
  | .began => true
  | _ => false

/-- Whether a run ended. -/
@[simp]
def isEnded : Mark τ → Bool
  | .ended => true
  | _ => false

/-- A call to stop has come back after a call for a start. -/
def Stopped (marks : List (Mark τ)) : Prop :=
  ∃ early result late, marks = early ++ .returned result :: late ∧ .started ∈ early

theorem not_stopped_nil : ¬ Stopped ([] : List (Mark τ)) := by
  rintro ⟨early, result, late, hmarks, -⟩
  cases early <;> cases hmarks

theorem stopped_append {marks more : List (Mark τ)} (h : Stopped marks) :
    Stopped (marks ++ more) := by
  obtain ⟨early, result, late, rfl, hstarted⟩ := h
  exact ⟨early, result, late ++ more, by rw [List.append_assoc]; rfl, hstarted⟩

/-- With the last of some marks a call to stop comes back, or it has come back before. -/
@[simp]
theorem stopped_concat {marks : List (Mark τ)} {mark : Mark τ} :
    Stopped (marks ++ [mark]) ↔
      Stopped marks ∨ (∃ result, mark = .returned result) ∧ .started ∈ marks := by
  constructor
  · rintro ⟨early, result, late, hmarks, hstarted⟩
    rcases List.eq_nil_or_concat late with rfl | ⟨front, last, rfl⟩
    · obtain ⟨rfl, hlast⟩ := List.append_inj' hmarks rfl
      exact .inr ⟨⟨result, (List.cons.inj hlast).1⟩, hstarted⟩
    · have hsplit : early ++ .returned result :: (front ++ [last]) =
          (early ++ .returned result :: front) ++ [last] := by
        rw [List.append_assoc]
        rfl
      rw [List.concat_eq_append, hsplit] at hmarks
      obtain ⟨rfl, -⟩ := List.append_inj' hmarks rfl
      exact .inl ⟨early, result, front, rfl, hstarted⟩
  · rintro (hbefore | ⟨⟨result, rfl⟩, hstarted⟩)
    · exact stopped_append hbefore
    · exact ⟨marks, result, [], rfl, hstarted⟩

end Mark

namespace Life

variable {τ ω : Type}

/-- A task that has not been started. -/
def ofTask (task : τ) : Life τ := ⟨.ofTask task, false⟩

variable [PeriodicTask τ ω]

/-- A move of the owner or of the thread.  While a call to stop has not come back, the owner makes
no other calls. -/
inductive Moves : Life τ → Mark τ → Life τ → Prop where
  /-- The owner calls for a start. -/
  | start {runner next : Runner τ} {inRun : Bool} (hfree : runner.isStopping = false)
      (hstart : runner.start = .ok next) : Moves ⟨runner, inRun⟩ .started ⟨next, inRun⟩
  /-- The owner calls to stop the thread, and stores the flag. -/
  | flag {runner : Runner τ} {inRun : Bool} (hrunning : runner.isRunning = true) :
      Moves ⟨runner, inRun⟩ .flagged ⟨runner.flag, inRun⟩
  /-- The owner sends the wake-up message. -/
  | wake {runner : Runner τ} {inRun : Bool} (howner : runner.owner = .flagging) :
      Moves ⟨runner, inRun⟩ .woke ⟨runner.wake, inRun⟩
  /-- The call to stop comes back when the thread has ended. -/
  | join {runner : Runner τ} {inRun : Bool} (howner : runner.owner = .joining)
      (hended : runner.hasEnded = true) :
      Moves ⟨runner, inRun⟩ (.returned runner.join.value.1) ⟨runner.join.value.2, inRun⟩
  /-- A call to stop comes back at once, because there is no thread to stop. -/
  | refuse {runner : Runner τ} {inRun : Bool} (hfree : runner.isStopping = false)
      (hrunning : runner.isRunning = false) :
      Moves ⟨runner, inRun⟩ (.returned none) ⟨runner, inRun⟩
  /-- The thread begins a run. -/
  | enter {runner : Runner τ} (hphase : runner.isAtRun = true) :
      Moves ⟨runner, false⟩ .began ⟨runner, true⟩
  /-- The thread completes a run. -/
  | leave {runner : Runner τ} (hphase : runner.isAtRun = true) (signal : Signal)
      (moment : Moment) :
      Moves ⟨runner, true⟩ .ended ⟨(runner.threadStep signal moment).value, false⟩
  /-- The thread takes some other step. -/
  | step {runner : Runner τ} {inRun : Bool} {signal : Signal}
      (hstep : runner.canStep signal = true) (moment : Moment) :
      Moves ⟨runner, inRun⟩ .stepped ⟨(runner.threadStep signal moment).value, inRun⟩

/-- One move after another, the first one first. -/
inductive Leads : Life τ → List (Mark τ) → Life τ → Prop where
  | refl (life : Life τ) : Leads life [] life
  | snoc {first mid last : Life τ} {marks : List (Mark τ)} {mark : Mark τ}
      (hleads : Leads first marks mid) (hmoves : Moves mid mark last) :
      Leads first (marks ++ [mark]) last

theorem Leads.append {first mid last : Life τ} {marks more : List (Mark τ)}
    (h : Leads first marks mid) (hmore : Leads mid more last) :
    Leads first (marks ++ more) last := by
  induction hmore with
  | refl => rwa [List.append_nil]
  | snoc _ hmoves ih =>
    rw [← List.append_assoc]
    exact .snoc ih hmoves

end Life

end PerfRelay
