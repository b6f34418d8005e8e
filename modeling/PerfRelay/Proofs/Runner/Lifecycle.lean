import PerfRelay.Proofs.Runner.Coherence

/-!
# The life of a runner

Whatever the owner calls and however its thread moves in between, runs of the task never overlap,
and the call that stops the thread comes back after a few moves, with the task.

Main results:

- Theorem `Coherent.countP_began_le`: once the flag is stored, no more than one run begins.
- Theorems `Coherent.length_le` and `Coherent.exists_moves`: a call that stops the thread comes
  back.
- Theorem `orderly`: the whole life of a runner.
-/

namespace PerfRelay

namespace Runner

variable {τ ω : Type} [PeriodicTask τ ω] {runner next : Runner τ} {signal : Signal}

/-! ## A thread that was told to end -/

/-- A thread that was told to end begins no further run. -/
theorem Advances.isAtRun_eq_false (h : runner.Advances signal next)
    (hstopping : runner.stopping = true) : next.isAtRun = false := by
  cases h with
  | rests hphase =>
    rcases hphase with hphase | hended
    · rw [Runner.isAtRun, hphase]
    · unfold Runner.isAtRun
      split
      · rename_i hphase
        rw [hasEnded, hphase] at hended
        cases hended
      · rfl
  | goesOn hphase hgoesOn =>
    rw [hstopping] at hgoesOn
    cases hgoesOn
  | _ => rfl

/-- The number of steps of the thread until it ends, once it is told to; the beginning of a run does
not count. -/
def stepsLeft (runner : Runner τ) : Nat :=
  match runner.phase with
  | some .launching => 4
  | some (.planning _) => 3
  | some (.waiting _ _) => 2
  | some (.deciding _ _) => 1
  | some (.running _) => 4
  | _ => 0

omit [PeriodicTask τ ω] in
theorem stepsLeft_le (runner : Runner τ) : runner.stepsLeft ≤ 4 := by
  unfold stepsLeft
  split <;> omega

omit [PeriodicTask τ ω] in
theorem stepsLeft_eq_zero_iff :
    runner.stepsLeft = 0 ↔ runner.phase = none ∨ runner.hasEnded = true := by
  cases hphase : runner.phase with
  | none => simp [stepsLeft, hphase]
  | some phase => cases phase <;> simp [stepsLeft, hasEnded, hphase]

omit [PeriodicTask τ ω] in
theorem stepsLeft_pos_of_isAtRun (h : runner.isAtRun = true) : 0 < runner.stepsLeft := by
  unfold Runner.isAtRun at h
  split at h
  · rename_i hphase
    simp [stepsLeft, hphase]
  · cases h

omit [PeriodicTask τ ω] in
theorem isAtRun_eq_false_of_stepsLeft (h : runner.stepsLeft = 0) : runner.isAtRun = false := by
  rw [← Bool.not_eq_true]
  intro hatRun
  have hpos := stepsLeft_pos_of_isAtRun hatRun
  omega

omit [PeriodicTask τ ω] in
theorem stepsLeft_pos_of_canStep (h : runner.canStep signal = true) : 0 < runner.stepsLeft := by
  unfold canStep at h
  split at h
  · rename_i hphase
    simp [stepsLeft, hphase]
  · rename_i hphase
    simp [stepsLeft, hphase]
  · rename_i hphase
    simp [stepsLeft, hphase]
  · rename_i hphase
    simp [stepsLeft, hphase]
  · cases h

/-- Every step brings a thread that was told to end nearer to its end. -/
theorem Advances.stepsLeft_lt (h : runner.Advances signal next) (hstopping : runner.stopping = true)
    (hleft : 0 < runner.stepsLeft) : next.stepsLeft < runner.stepsLeft := by
  cases h with
  | breaksOff hphase hended hinterval => exact hleft
  | goesOn hphase hgoesOn =>
    rw [hstopping] at hgoesOn
    cases hgoesOn
  | rests hrests =>
    rw [stepsLeft_eq_zero_iff.2 hrests] at hleft
    cases hleft
  | _ => simp_all [stepsLeft]

end Runner

namespace Life

open Runner

variable {τ ω : Type} [PeriodicTask τ ω] {life next : Life τ} {mark : Mark τ}

/-! ## After the flag is stored -/

/-- The number of runs that can still begin once the flag is stored. -/
def runsLeft (life : Life τ) : Nat :=
  if life.runner.isAtRun && !life.inRun then 1 else 0

/-- A flag that is stored stays, and no further run comes up. -/
theorem Coherent.runsLeft_moves (h : life.Coherent) (hmoves : Moves life mark next)
    (hstopping : life.runner.stopping = true) :
    next.runner.stopping = true ∧ mark.isBegan.toNat + next.runsLeft ≤ life.runsLeft := by
  obtain ⟨hidle, hstarted⟩ := h.stopping_iff.1 hstopping
  cases hmoves with
  | start hfree hstart =>
    rcases start_cases hstart with ⟨howner, -⟩ | ⟨-, rfl⟩
    · exact (hidle howner).elim
    · exact ⟨hstopping, Nat.le_of_eq (Nat.zero_add _)⟩
  | flag hrunning => exact (hstarted (isRunning_iff.1 hrunning)).elim
  | wake howner => exact ⟨hstopping, Nat.le_of_eq (Nat.zero_add _)⟩
  | join howner hended =>
    rw [join_runner]
    exact ⟨hstopping, Nat.le_of_eq (Nat.zero_add _)⟩
  | refuse hfree hrunning => exact ⟨hstopping, Nat.le_of_eq (Nat.zero_add _)⟩
  | enter hphase =>
    refine ⟨hstopping, Nat.le_of_eq ?_⟩
    simp [runsLeft, hphase]
  | @leave runner hphase signal moment =>
    have hadvances := threadStep_advances signal moment runner
    have hnext : runsLeft ⟨(runner.threadStep signal moment).value, false⟩ = 0 := by
      simp [runsLeft, hadvances.isAtRun_eq_false hstopping]
    exact ⟨hadvances.frame.2.trans hstopping, by simp [hnext]⟩
  | @step runner inRun signal hstep moment =>
    have hadvances := threadStep_advances signal moment runner
    have hnext : runsLeft ⟨(runner.threadStep signal moment).value, inRun⟩ = 0 := by
      simp [runsLeft, hadvances.isAtRun_eq_false hstopping]
    exact ⟨hadvances.frame.2.trans hstopping, by simp [hnext]⟩

/-- Once the flag is stored, no more runs begin than are left. -/
theorem Coherent.countP_began_le {first last : Life τ} {marks : List (Mark τ)}
    (h : first.Coherent) (hleads : Leads first marks last)
    (hstopping : first.runner.stopping = true) :
    last.runner.stopping = true ∧
      marks.countP Mark.isBegan + last.runsLeft ≤ first.runsLeft := by
  induction hleads with
  | refl => exact ⟨hstopping, Nat.le_of_eq (Nat.zero_add _)⟩
  | @snoc mid last marks mark hleads hmoves ih =>
    obtain ⟨hmid, hcount⟩ := ih
    obtain ⟨hlast, hstep⟩ := (h.leads hleads).runsLeft_moves hmoves hmid
    refine ⟨hlast, ?_⟩
    have hone : [mark].countP Mark.isBegan = mark.isBegan.toNat := by
      cases mark <;> rfl
    rw [List.countP_append, hone]
    omega

theorem runsLeft_le_one (life : Life τ) : life.runsLeft ≤ 1 := by
  unfold runsLeft
  split
  · exact Nat.le_refl 1
  · exact Nat.zero_le 1

/-! ## A call that stops the thread comes back -/

/-- The number of moves until a call that stops the thread comes back. -/
def movesLeft (life : Life τ) : Nat :=
  life.runner.stepsLeft + life.runsLeft + if life.runner.owner = .flagging then 1 else 0

omit [PeriodicTask τ ω] in
theorem movesLeft_le (life : Life τ) : life.movesLeft ≤ 6 := by
  have hsteps := life.runner.stepsLeft_le
  have hruns := life.runsLeft_le_one
  unfold movesLeft
  split <;> omega

omit [PeriodicTask τ ω] in
theorem isStopping_iff {runner : Runner τ} :
    runner.isStopping = true ↔ runner.owner = .flagging ∨ runner.owner = .joining := by
  rw [isStopping, Bool.or_eq_true, beq_iff_eq, beq_iff_eq]

/-- A step of the thread brings the end nearer. -/
theorem movesLeft_advances {runner after : Runner τ} {inRun : Bool} {signal : Signal}
    (h : runner.Advances signal after) (hstopping : runner.stopping = true)
    (hleft : 0 < runner.stepsLeft) (inRun' : Bool) :
    movesLeft ⟨after, inRun'⟩ < movesLeft ⟨runner, inRun⟩ := by
  have hsteps : after.stepsLeft < runner.stepsLeft := h.stepsLeft_lt hstopping hleft
  have hruns : runsLeft ⟨after, inRun'⟩ = 0 := by
    simp [runsLeft, h.isAtRun_eq_false hstopping]
  simp only [movesLeft, hruns, h.frame.1]
  omega

/-- While the owner waits for the thread to end, every move brings the end nearer, or it is the one
with which the call comes back. -/
theorem Coherent.movesLeft_moves (h : life.Coherent) (hmoves : Moves life mark next)
    (hstop : life.runner.isStopping = true) :
    (∃ result, mark = .returned result) ∨
      next.runner.isStopping = true ∧ next.movesLeft < life.movesLeft := by
  have howner := isStopping_iff.1 hstop
  have hstopping : life.runner.stopping = true := by
    rw [h.stopping_iff]
    rcases howner with howner | howner
    · simp [howner]
    · simp [howner]
  cases hmoves with
  | start hfree hstart =>
    rw [hstop] at hfree
    cases hfree
  | flag hrunning =>
    rw [isRunning_iff] at hrunning
    rcases howner with howner | howner
    · rw [hrunning] at howner
      cases howner
    · rw [hrunning] at howner
      cases howner
  | @wake runner inRun hflagging =>
    have hsame : runsLeft ⟨runner.wake, inRun⟩ = runsLeft ⟨runner, inRun⟩ := rfl
    have hsteps : runner.wake.stepsLeft = runner.stepsLeft := rfl
    refine .inr ⟨rfl, ?_⟩
    simp only [movesLeft, hsame, hsteps, hflagging, if_true]
    simp [Runner.wake]
  | join hjoining hended => exact .inl ⟨_, rfl⟩
  | refuse hfree hrunning => exact .inl ⟨none, rfl⟩
  | @enter runner hphase =>
    refine .inr ⟨hstop, ?_⟩
    simp [movesLeft, runsLeft, hphase]
  | @leave runner hphase signal moment =>
    have hadvances := threadStep_advances signal moment runner
    refine .inr ⟨?_, movesLeft_advances hadvances hstopping (stepsLeft_pos_of_isAtRun hphase) _⟩
    rw [isStopping_iff, hadvances.frame.1]
    exact howner
  | @step runner inRun signal hstep moment =>
    have hadvances := threadStep_advances signal moment runner
    refine .inr ⟨?_, movesLeft_advances hadvances hstopping (stepsLeft_pos_of_canStep hstep) _⟩
    rw [isStopping_iff, hadvances.frame.1]
    exact howner

/-- Until the call comes back, no more moves are made than are left. -/
theorem Coherent.length_le {first last : Life τ} {marks : List (Mark τ)} (h : first.Coherent)
    (hleads : Leads first marks last) (hstop : first.runner.isStopping = true)
    (hwaits : ∀ result, .returned result ∉ marks) :
    last.runner.isStopping = true ∧ marks.length + last.movesLeft ≤ first.movesLeft := by
  induction hleads with
  | refl => exact ⟨hstop, Nat.le_of_eq (Nat.zero_add _)⟩
  | @snoc mid last marks mark hleads hmoves ih =>
    obtain ⟨hmid, hlength⟩ := ih fun result hresult =>
      hwaits result (List.mem_append_left _ hresult)
    rcases (h.leads hleads).movesLeft_moves hmoves hmid with ⟨result, rfl⟩ | ⟨hlast, hless⟩
    · exact (hwaits result (List.mem_append_right _ (List.mem_singleton_self _))).elim
    · refine ⟨hlast, ?_⟩
      rw [List.length_append, List.length_singleton]
      omega

/-- Until the call comes back, there is always a move. -/
theorem Coherent.exists_moves (h : life.Coherent) (hstop : life.runner.isStopping = true) :
    ∃ mark next, Moves life mark next := by
  obtain ⟨runner, inRun⟩ := life
  rcases isStopping_iff.1 hstop with hflagging | hjoining
  · exact ⟨_, _, .wake hflagging⟩
  · by_cases hended : runner.hasEnded = true
    · exact ⟨_, _, .join hjoining hended⟩
    · have hphase : runner.phase ≠ none := by
        intro hnone
        have hidle := h.absent_iff.1 hnone
        simp only at hjoining
        rw [hjoining] at hidle
        cases hidle
      obtain ⟨phase, hsome⟩ := Option.ne_none_iff_exists'.1 hphase
      cases phase with
      | running schedule =>
        have hatRun : runner.isAtRun = true := by rw [Runner.isAtRun, hsome]
        cases inRun with
        | false => exact ⟨_, _, .enter hatRun⟩
        | true => exact ⟨_, _, .leave hatRun .timeout ⟨0, 0⟩⟩
      | exited => simp [Runner.hasEnded, hsome] at hended
      | crashed => simp [Runner.hasEnded, hsome] at hended
      | _ =>
        have hstep : runner.canStep .timeout = true := by simp [canStep, hsome, canEnd]
        exact ⟨_, _, .step hstep ⟨0, 0⟩⟩

/-! ## Threads that do not break off -/

/-- The interval of a task can always be read.  A due time that no clock can show would break off
the thread as well; instants are numbers without a bound here, so none of them overflows. -/
def AlwaysReads (τ : Type) {ω : Type} [PeriodicTask τ ω] : Prop :=
  ∀ task : τ, (PeriodicTask.interval task).1 ≠ none

theorem not_crashed_of_advances {runner after : Runner τ} {signal : Signal}
    (h : runner.Advances signal after) (hreads : AlwaysReads τ)
    (hphase : runner.phase ≠ some .crashed) : after.phase ≠ some .crashed := by
  cases h with
  | breaksOff hsome hended hinterval => exact (hreads _ hinterval).elim
  | rests hrests => exact hphase
  | _ => simp

theorem not_crashed_of_leads (hreads : AlwaysReads τ) {task : τ} {marks : List (Mark τ)}
    {last : Life τ} (h : Leads (ofTask task) marks last) : last.runner.phase ≠ some .crashed := by
  generalize hfirst : ofTask task = first at h
  induction h with
  | refl =>
    rw [← hfirst]
    simp [ofTask, Runner.ofTask]
  | snoc _ hmoves ih =>
    cases hmoves with
    | start hfree hstart =>
      rcases start_cases hstart with ⟨-, rfl⟩ | ⟨-, rfl⟩
      · simp
      · exact ih
    | flag hrunning => exact ih
    | wake howner => exact ih
    | join howner hended =>
      rw [join_runner]
      exact ih
    | refuse hfree hrunning => exact ih
    | enter hphase => exact ih
    | leave hphase signal moment =>
      exact not_crashed_of_advances (threadStep_advances signal moment _) hreads ih
    | step hstep moment => exact not_crashed_of_advances (threadStep_advances _ moment _) hreads ih

end Life

/-! ## How runs end -/

/-- Two ways to run a task that lead to the same places.  The runs may end in different ways, and
note different things. -/
structure PeriodicTask.SameCourse {τ ω : Type} (task other : PeriodicTask τ ω) : Prop where
  name_eq : other.name = task.name
  interval_eq : other.interval = task.interval
  run_eq : ∀ moment state, (other.run moment state).value.2 = (task.run moment state).value.2

theorem PeriodicTask.SameCourse.symm {τ ω : Type} {task other : PeriodicTask τ ω}
    (h : task.SameCourse other) : other.SameCourse task :=
  ⟨h.name_eq.symm, h.interval_eq.symm, fun moment state => (h.run_eq moment state).symm⟩

namespace Life

open Runner

section SameCourse

variable {τ ω : Type} {task other : PeriodicTask τ ω} (h : task.SameCourse other)
include h

theorem start_of_sameCourse (runner : Runner τ) :
    @Runner.start τ ω other runner = @Runner.start τ ω task runner := by
  simp only [Runner.start, Runner.threadName, h.name_eq]

theorem threadStep_of_sameCourse (signal : Signal) (moment : Moment) (runner : Runner τ) :
    (@Runner.threadStep τ ω other signal moment runner).value =
      (@Runner.threadStep τ ω task signal moment runner).value := by
  unfold Runner.threadStep
  split
  · simp only [Runner.launch, h.interval_eq]
    split <;> rfl
  · simp only [Runner.plan, h.interval_eq]
  · rfl
  · unfold Runner.choose
    split <;> rfl
  · rw [@Runner.runTask_value τ ω other, @Runner.runTask_value τ ω task, h.run_eq]
  · rfl
  · rfl
  · rfl

omit h in
theorem join_of_sameCourse (runner : Runner τ) :
    (@Runner.join τ ω other runner).value = (@Runner.join τ ω task runner).value := by
  unfold Runner.join
  split <;> rfl

theorem Moves.of_sameCourse {life next : Life τ} {mark : Mark τ}
    (hmoves : @Moves τ ω task life mark next) : @Moves τ ω other life mark next := by
  cases hmoves with
  | @start runner after inRun hfree hstart =>
    rw [← start_of_sameCourse h runner] at hstart
    exact @Moves.start τ ω other _ _ _ hfree hstart
  | flag hrunning => exact @Moves.flag τ ω other _ _ hrunning
  | wake howner => exact @Moves.wake τ ω other _ _ howner
  | @join runner inRun howner hended =>
    rw [← @join_of_sameCourse τ ω task other runner]
    exact @Moves.join τ ω other _ _ howner hended
  | refuse hfree hrunning => exact @Moves.refuse τ ω other _ _ hfree hrunning
  | enter hphase => exact @Moves.enter τ ω other _ hphase
  | leave hphase signal moment =>
    rw [← threadStep_of_sameCourse h]
    exact @Moves.leave τ ω other _ hphase signal moment
  | step hstep moment =>
    rw [← threadStep_of_sameCourse h]
    exact @Moves.step τ ω other _ _ _ hstep moment

/-- How runs end has no influence on the moves. -/
theorem Leads.of_sameCourse {first last : Life τ} {marks : List (Mark τ)}
    (hleads : @Leads τ ω task first marks last) : @Leads τ ω other first marks last := by
  induction hleads with
  | refl => exact @Leads.refl τ ω other _
  | snoc _ hmoves ih => exact @Leads.snoc τ ω other _ _ _ _ _ ih (hmoves.of_sameCourse h)

end SameCourse

/-! ## The whole life -/

section Orderly

variable {τ ω : Type} [course : PeriodicTask τ ω]

/-- The life of a runner, whatever its owner calls and however its thread moves in between. -/
structure Orderly (task : τ) : Prop where
  /-- At most one run is in progress: as many have ended as have begun, or all but one. -/
  alone : ∀ {marks : List (Mark τ)} {last : Life τ}, Leads (ofTask task) marks last →
    marks.countP Mark.isBegan = marks.countP Mark.isEnded + last.inRun.toNat
  /-- Once the flag is stored, at most one more run begins. -/
  oneMore : ∀ {marks more : List (Mark τ)} {mid last : Life τ}, Leads (ofTask task) marks mid →
    .flagged ∈ marks → Leads mid more last → more.countP Mark.isBegan ≤ 1
  /-- Once a call has stopped the thread, no run is in progress and none begins. -/
  noneAfter : ∀ {marks more : List (Mark τ)} {mid last : Life τ}, Leads (ofTask task) marks mid →
    Mark.Stopped marks → Leads mid more last →
      mid.inRun = false ∧ more.countP Mark.isBegan = 0
  /-- The first call to stop that comes back after the start hands the task back, unless the thread
  broke off. -/
  handsBack : ∀ {marks : List (Mark τ)} {mid last : Life τ} {result : Option τ},
    Leads (ofTask task) marks mid → .started ∈ marks → ¬ Mark.Stopped marks →
      Moves mid (.returned result) last →
        result = some mid.runner.task ∨ mid.runner.phase = some .crashed
  /-- A thread does not break off if the interval can always be read, as long as no instant
  overflows, which is no move here. -/
  holdsOn : AlwaysReads τ → ∀ {marks : List (Mark τ)} {last : Life τ},
    Leads (ofTask task) marks last → last.runner.phase ≠ some .crashed
  /-- Every other call to stop comes back with nothing. -/
  givesNone : ∀ {marks : List (Mark τ)} {mid last : Life τ} {result : Option τ},
    Leads (ofTask task) marks mid → (.started ∉ marks ∨ Mark.Stopped marks) →
      Moves mid (.returned result) last → result = none
  /-- Every call for a start after the first one changes nothing. -/
  startsOnce : ∀ {marks : List (Mark τ)} {mid last : Life τ}, Leads (ofTask task) marks mid →
    .started ∈ marks → Moves mid .started last → last = mid
  /-- A call that stops the thread comes back: there is a next move until it does, and it does after
  a few of them. -/
  comesBack : ∀ {marks more : List (Mark τ)} {mid last : Life τ}, Leads (ofTask task) marks mid →
    .flagged ∈ marks → Leads mid more last → ¬ Mark.Stopped (marks ++ more) →
      more.length ≤ 6 ∧ ∃ mark next, Moves last mark next
  /-- The wake-up message is not lost: a thread that waits when it is sent receives it. -/
  wakesUp : ∀ {marks : List (Mark τ)} {last : Life τ}, Leads (ofTask task) marks last →
    .woke ∈ marks → ∀ schedule wait, last.runner.phase = some (.waiting schedule wait) →
      last.runner.canEnd .message = true
  /-- The thread does not end before the flag is stored. -/
  goesOn : ∀ {marks : List (Mark τ)} {last : Life τ}, Leads (ofTask task) marks last →
    .flagged ∉ marks → last.runner.phase ≠ some .exited
  /-- How runs end has no influence on any of it. -/
  anyOutcome : ∀ {other : PeriodicTask τ ω}, course.SameCourse other →
    ∀ {marks : List (Mark τ)} {last : Life τ},
      @Leads τ ω other (ofTask task) marks last ↔ @Leads τ ω course (ofTask task) marks last

variable {task : τ} {marks more : List (Mark τ)} {mid last : Life τ} {result : Option τ}

/-- Once a call has stopped the thread, no run is in progress and none begins. -/
theorem noneAfter_of_leads (h : Leads (ofTask task) marks mid) (hstopped : Mark.Stopped marks)
    (hmore : Leads mid more last) : mid.inRun = false ∧ more.countP Mark.isBegan = 0 := by
  have hcoherent := coherent_of_leads h
  have howner : mid.runner.owner = .finished := (recorded_of_leads h).stopped_iff.1 hstopped
  have hended : mid.runner.hasEnded = true := hcoherent.hasEnded howner
  have hatRun : mid.runner.isAtRun = false :=
    isAtRun_eq_false_of_stepsLeft (stepsLeft_eq_zero_iff.2 (.inr hended))
  have hleft : mid.runsLeft = 0 := by simp [runsLeft, hatRun]
  have hstopping : mid.runner.stopping = true := hcoherent.stopping_iff.2 (by simp [howner])
  have hcount := (hcoherent.countP_began_le hmore hstopping).2
  exact ⟨hcoherent.inRun_eq_false hatRun, by omega⟩

/-- The first call to stop that comes back after the start finds a thread that has ended. -/
theorem handsBack_of_leads (h : Leads (ofTask task) marks mid) (hstarted : .started ∈ marks)
    (hstopped : ¬ Mark.Stopped marks) (hmoves : Moves mid (.returned result) last) :
    result = some mid.runner.task ∨ mid.runner.phase = some .crashed := by
  have hrecorded := recorded_of_leads h
  have hidle := hrecorded.started_iff.1 hstarted
  rw [hrecorded.stopped_iff] at hstopped
  cases hmoves with
  | @join runner inRun howner hended =>
    unfold Runner.hasEnded at hended
    split at hended
    · rename_i hexited
      exact .inl (join_result hexited)
    · rename_i hcrashed
      exact .inr hcrashed
    · cases hended
  | refuse hfree hrunning =>
    rcases owner_of_refused hfree hrunning with howner | howner
    · exact (hidle howner).elim
    · exact (hstopped howner).elim

/-- Every other call to stop comes back with nothing. -/
theorem givesNone_of_leads (h : Leads (ofTask task) marks mid)
    (hother : .started ∉ marks ∨ Mark.Stopped marks) (hmoves : Moves mid (.returned result) last) :
    result = none := by
  have hrecorded := recorded_of_leads h
  rw [hrecorded.started_iff, Decidable.not_not, hrecorded.stopped_iff] at hother
  cases hmoves with
  | join howner hended =>
    simp only at hother
    rw [howner] at hother
    rcases hother with hidle | hfinished
    · cases hidle
    · cases hfinished
  | refuse hfree hrunning => rfl

/-- A call that stops the thread comes back. -/
theorem comesBack_of_leads (h : Leads (ofTask task) marks mid) (hflagged : .flagged ∈ marks)
    (hmore : Leads mid more last) (hwaits : ¬ Mark.Stopped (marks ++ more)) :
    more.length ≤ 6 ∧ ∃ mark next, Moves last mark next := by
  have hcoherent := coherent_of_leads h
  have hrecorded := recorded_of_leads h
  obtain ⟨hidle, hstarted⟩ := hcoherent.stopping_iff.1 (hrecorded.flagged_iff.1 hflagged)
  have hstart : .started ∈ marks := hrecorded.started_iff.2 hidle
  have hstop : mid.runner.isStopping = true := by
    rw [isStopping_iff]
    cases howner : mid.runner.owner with
    | idle => exact (hidle howner).elim
    | started => exact (hstarted howner).elim
    | flagging => exact .inl rfl
    | joining => exact .inr rfl
    | finished => exact (hwaits (Mark.stopped_append (hrecorded.stopped_iff.2 howner))).elim
  have hnone : ∀ result, .returned result ∉ more := by
    intro result hresult
    obtain ⟨early, late, rfl⟩ := List.append_of_mem hresult
    apply hwaits
    refine ⟨marks ++ early, result, late, ?_, List.mem_append_left _ hstart⟩
    rw [List.append_assoc]
  obtain ⟨hlast, hlength⟩ := hcoherent.length_le hmore hstop hnone
  have hsix := mid.movesLeft_le
  exact ⟨by omega, (hcoherent.leads hmore).exists_moves hlast⟩

/-- Whatever the owner calls and however the thread moves, the life of a runner is orderly. -/
theorem orderly (task : τ) : Orderly task where
  alone h := (recorded_of_leads h).countP_began
  oneMore h hflagged hmore := by
    have hstopping := (recorded_of_leads h).flagged_iff.1 hflagged
    have hcount := ((coherent_of_leads h).countP_began_le hmore hstopping).2
    exact Nat.le_trans (Nat.le_of_add_right_le hcount) (runsLeft_le_one _)
  noneAfter := noneAfter_of_leads
  handsBack := handsBack_of_leads
  holdsOn hreads _ _ h := not_crashed_of_leads hreads h
  givesNone := givesNone_of_leads
  startsOnce h hstarted hmoves := by
    have hidle := (recorded_of_leads h).started_iff.1 hstarted
    cases hmoves with
    | start hfree hstart =>
      rcases start_cases hstart with ⟨howner, -⟩ | ⟨-, rfl⟩
      · exact (hidle howner).elim
      · rfl
  comesBack := comesBack_of_leads
  wakesUp h hwoke schedule wait hphase := by
    have hcoherent := coherent_of_leads h
    rcases (recorded_of_leads h).woke_iff.1 hwoke with hjoining | hfinished
    · rcases hcoherent.isAwake hjoining with hmessage | hleaving | hended
      · exact decide_eq_true hmessage
      · simp [isLeaving, hphase] at hleaving
      · simp [Runner.hasEnded, hphase] at hended
    · have hended := hcoherent.hasEnded hfinished
      simp [Runner.hasEnded, hphase] at hended
  goesOn h hflagged hexited := by
    rw [(recorded_of_leads h).flagged_iff, Bool.not_eq_true] at hflagged
    have hquiet := (coherent_of_leads h).isQuiet hflagged
    simp [IsQuiet, isLeaving, hexited] at hquiet
  anyOutcome hsame :=
    ⟨fun h => Leads.of_sameCourse hsame.symm h, fun h => Leads.of_sameCourse hsame h⟩

end Orderly

end Life

end PerfRelay
