import PerfRelay.Clock
import PerfRelay.Failure
import PerfRelay.Journal
import PerfRelay.Runner.Schedule
import PerfRelay.Text.Utf8

/-!
# Periodic tasks on a thread

A task is run once per interval by a thread of its own.  The thread moves in small steps: it reads
the interval, plans the next run, waits, looks whether it is to stop, and runs the task.  A run that
fails or breaks off is noted and changes nothing else; only an interval that cannot be read ends the
thread early.

Its owner starts it once and stops it by a flag and a wake-up message, and then waits until the
thread has ended, so a run that is under way is always completed.  The thread is named for the task,
and a task whose name has a zero byte in it cannot be started.

Main results:

- Theorem `Runner.start_of_started`: starting a second time changes nothing.
-/

namespace PerfRelay

/-- How a run of a task ended. -/
inductive RunOutcome where
  | completed
  | failed (failure : Failure)
  /-- The run broke off. -/
  | panicked

/-- A task that can be run time and again. -/
class PeriodicTask (τ : Type) (ω : outParam Type) where
  name : τ → String
  /-- The interval until the next run in microseconds; `none` when reading it breaks off. -/
  interval : τ → Option Nat × τ
  run : Moment → τ → Noted ω (RunOutcome × τ)
  /-- The note for a log entry. -/
  log : Entry → ω

/-- Where the thread stands. -/
inductive Phase where
  /-- It has not read any interval yet. -/
  | launching
  /-- It is about to plan the next run. -/
  | planning (schedule : Schedule)
  /-- It waits, at most this long, for a wake-up message. -/
  | waiting (schedule : Schedule) (wait : Nat)
  /-- It has waited, and looks whether it is to stop; the flag tells that it was woken. -/
  | deciding (schedule : Schedule) (woken : Bool)
  /-- It runs the task. -/
  | running (schedule : Schedule)
  /-- It has ended and gives the task back. -/
  | exited
  /-- It broke off. -/
  | crashed
deriving DecidableEq, Repr

/-- How a wait ends. -/
inductive Signal where
  | timeout
  | message
  | disconnected
deriving DecidableEq, Repr

/-- What the owner is doing. -/
inductive Owner where
  /-- It has not started the thread. -/
  | idle
  /-- It has a running thread. -/
  | started
  /-- It has told the thread to stop. -/
  | flagging
  /-- It has also sent the wake-up message, and waits for the thread to end. -/
  | joining
  /-- The thread has ended. -/
  | finished
deriving DecidableEq, Repr

/-- A name that no thread can have: a zero byte stands at this position in it. -/
structure BadThreadName where
  name : List UInt8
  position : Nat
deriving DecidableEq, Repr

namespace BadThreadName

/-- The first zero byte in a name. -/
def find? (name : String) : Option BadThreadName :=
  let bytes := Utf8.encode name
  (bytes.findIdx? (· == 0)).map fun position => ⟨bytes, position⟩

/-- Why no thread can have the name. -/
def message (_ : BadThreadName) : String :=
  "thread name may not contain interior null bytes"

end BadThreadName

/-- A task, its thread and its owner. -/
structure Runner (τ : Type) where
  task : τ
  /-- The thread; there is none before the start. -/
  phase : Option Phase
  owner : Owner
  /-- Whether the thread is to stop. -/
  stopping : Bool
  /-- The wake-up messages that were not received yet. -/
  messages : Nat
deriving Repr

namespace Runner

variable {τ ω : Type}

/-- A task that has not been started. -/
def ofTask (task : τ) : Runner τ := ⟨task, none, .idle, false, 0⟩

/-- Whether the owner has a running thread. -/
def isRunning (runner : Runner τ) : Bool := runner.owner == .started

/-- Whether a wait can end with a signal. -/
def canEnd (runner : Runner τ) : Signal → Bool
  | .timeout => true
  | .message => 0 < runner.messages
  | .disconnected => runner.messages == 0 && runner.owner != .started && runner.owner != .flagging

section Thread

variable [PeriodicTask τ ω]

/-- Writes a log entry about the task. -/
def log (runner : Runner τ) (level : Level) (what : String) : Noted ω PUnit :=
  .note (PeriodicTask.log τ ⟨level, s!"{PeriodicTask.name runner.task}: {what}"⟩)

/-- The thread reads the interval for the first time. -/
def launch (moment : Moment) (runner : Runner τ) : Noted ω (Runner τ) :=
  match PeriodicTask.interval runner.task with
  | (none, task) => pure { runner with task, phase := some .crashed }
  | (some interval, task) => do
    runner.log .info s!"running every {secondsText interval}s"
    return { runner with task, phase := some (.planning (.start moment.now interval)) }

/-- The thread plans the next run. -/
def plan (moment : Moment) (schedule : Schedule) (runner : Runner τ) : Runner τ :=
  match PeriodicTask.interval runner.task with
  | (none, task) => { runner with task, phase := some .crashed }
  | (some interval, task) =>
    let (wait, schedule) := { schedule with interval }.nextWait moment.now
    { runner with task, phase := some (.waiting schedule wait) }

/-- The thread has waited. -/
def wakeUp (signal : Signal) (schedule : Schedule) (runner : Runner τ) : Runner τ :=
  match signal with
  | .timeout => { runner with phase := some (.deciding schedule false) }
  | .message =>
    { runner with phase := some (.deciding schedule true), messages := runner.messages - 1 }
  | .disconnected => { runner with phase := some (.deciding schedule true) }

/-- The thread ends or begins a run. -/
def choose (schedule : Schedule) (woken : Bool) (runner : Runner τ) : Noted ω (Runner τ) :=
  if woken || runner.stopping then do
    runner.log .info "stopped"
    return { runner with phase := some .exited }
  else do
    runner.log .debug "run start"
    return { runner with phase := some (.running schedule) }

/-- The thread runs the task. -/
def runTask (moment : Moment) (schedule : Schedule) (runner : Runner τ) :
    Noted ω (Runner τ) := do
  let (outcome, task) ← PeriodicTask.run moment runner.task
  let runner := { runner with task, phase := some (.planning schedule) }
  match outcome with
  | .completed => runner.log .debug "run end"
  | .failed failure => runner.log .warn s!"run failed: {failure.message}"
  | .panicked => runner.log .error "run panicked"
  return runner

/-- The next step of the thread; a wait ends with the given signal. -/
def threadStep (signal : Signal) (moment : Moment) (runner : Runner τ) : Noted ω (Runner τ) :=
  match runner.phase with
  | some .launching => runner.launch moment
  | some (.planning schedule) => pure (runner.plan moment schedule)
  | some (.waiting schedule _) => pure (runner.wakeUp signal schedule)
  | some (.deciding schedule woken) => runner.choose schedule woken
  | some (.running schedule) => runner.runTask moment schedule
  | some .exited => pure runner
  | some .crashed => pure runner
  | none => pure runner

end Thread

/-! ## The owner -/

/-- Tells the thread to stop. -/
def flag (runner : Runner τ) : Runner τ :=
  { runner with owner := .flagging, stopping := true }

/-- Sends the wake-up message. -/
def wake (runner : Runner τ) : Runner τ :=
  { runner with owner := .joining, messages := runner.messages + 1 }

/-- Whether the thread has ended. -/
def hasEnded (runner : Runner τ) : Bool :=
  match runner.phase with
  | some .exited => true
  | some .crashed => true
  | _ => false

variable [PeriodicTask τ ω]

/-- The name of the thread of a task. -/
def threadName (task : τ) : String := PeriodicTask.name task ++ "-runner"

/-- Starts the thread, once. -/
def start (runner : Runner τ) : Except BadThreadName (Runner τ) :=
  match runner.owner with
  | .idle =>
    match BadThreadName.find? (threadName runner.task) with
    | some fault => .error fault
    | none => .ok { runner with phase := some .launching, owner := .started }
  | _ => .ok runner

theorem start_of_started {runner : Runner τ} (h : runner.owner ≠ .idle) :
    runner.start = .ok runner := by
  unfold start
  split
  · contradiction
  · rfl

/-- Takes note of the end of the thread, and takes the task back if the thread gave it. -/
def join (runner : Runner τ) : Noted ω (Option τ × Runner τ) :=
  let ended := { runner with owner := .finished }
  match runner.phase with
  | some .exited => pure (some runner.task, ended)
  | _ => ⟨(none, ended),
      [PeriodicTask.log τ (.error "periodic runner thread panicked")]⟩

/-- Lets the thread go on for some steps, and receive a message wherever there is one. -/
def goOn (moment : Moment) : Nat → Runner τ → Noted ω (Runner τ)
  | 0, runner => pure runner
  | steps + 1, runner => do
    let signal := if 0 < runner.messages then .message else .timeout
    let runner ← runner.threadStep signal moment
    goOn moment steps runner

/-- The most steps that a thread takes once it was woken: it may have to complete a run, plan, wait
and decide. -/
def stepsToEnd : Nat := 4

/-- Stops the thread, waits for its end and takes the task back.  Without a running thread there is
nothing to do. -/
def shutdown (moment : Moment) (runner : Runner τ) : Noted ω (Option τ × Runner τ) :=
  if runner.isRunning then do
    let runner ← runner.flag.wake.goOn moment stepsToEnd
    runner.join
  else pure (none, runner)

end Runner

end PerfRelay
