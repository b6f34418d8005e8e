import PerfRelay.Proofs.Runner.Lifecycle

/-!
# Stopping a thread in one go

The call that stops a thread, made while nobody else moves, is one of the courses that the moves
allow: it comes back once the thread has ended, and hands the task back.

Main results:

- Theorem `Life.leads_shutdown`: the call is a course of moves that ends with its coming back.
- Theorem `Life.exists_began_after_flag`: a run can begin after the flag is stored.
-/

namespace PerfRelay

namespace Life

open Runner

variable {τ ω : Type} [PeriodicTask τ ω] {runner : Runner τ} {inRun : Bool}

/-! ## Going on -/

/-- The step that a thread takes with nobody else moving is a move, or two of them if it begins a
run. -/
theorem leads_threadStep {signal : Signal} (hsignal : runner.CanEndWait signal) (moment : Moment)
    (hrun : inRun = true → runner.isAtRun = true) (hleft : 0 < runner.stepsLeft) :
    ∃ marks, Leads ⟨runner, inRun⟩ marks ⟨(runner.threadStep signal moment).value, false⟩ := by
  cases hatRun : runner.isAtRun with
  | true =>
    have hleave : Leads ⟨runner, true⟩ [.ended] ⟨(runner.threadStep signal moment).value, false⟩ :=
      .snoc (.refl _) (.leave hatRun signal moment)
    cases inRun with
    | true => exact ⟨_, hleave⟩
    | false => exact ⟨_, Leads.append (.snoc (.refl _) (.enter hatRun)) hleave⟩
  | false =>
    have hnone : inRun = false := by
      rw [← Bool.not_eq_true]
      intro hinRun
      rw [hrun hinRun] at hatRun
      cases hatRun
    have hstep : runner.canStep signal = true := by
      cases hphase : runner.phase with
      | none => simp [stepsLeft, hphase] at hleft
      | some phase =>
        cases phase with
        | waiting schedule wait => simpa [canStep, hphase] using hsignal schedule wait hphase
        | running schedule => simp [Runner.isAtRun, hphase] at hatRun
        | exited => simp [stepsLeft, hphase] at hleft
        | crashed => simp [stepsLeft, hphase] at hleft
        | _ => simp [canStep, hphase]
    rw [hnone]
    exact ⟨_, .snoc (.refl _) (.step hstep moment)⟩

omit [PeriodicTask τ ω] in
/-- A message ends a wait, and the time ends it if there is none. -/
theorem canEndWait_of_messages (runner : Runner τ) :
    runner.CanEndWait (if 0 < runner.messages then .message else .timeout) := by
  intro schedule wait hphase
  split
  · rename_i hmessages
    exact decide_eq_true hmessages
  · rfl

/-- A thread that was told to end does so within the steps that are left to it. -/
theorem leads_goOn (moment : Moment) {steps : Nat} (hsteps : runner.stepsLeft ≤ steps)
    (hstopping : runner.stopping = true) (hrun : inRun = true → runner.isAtRun = true) :
    ∃ marks, Leads ⟨runner, inRun⟩ marks ⟨(runner.goOn moment steps).value, false⟩ ∧
      (runner.goOn moment steps).value.owner = runner.owner ∧
        (runner.goOn moment steps).value.stepsLeft = 0 := by
  induction steps generalizing runner inRun with
  | zero =>
    have hleft : runner.stepsLeft = 0 := Nat.le_zero.1 hsteps
    have hnone : inRun = false := by
      rw [← Bool.not_eq_true]
      intro hinRun
      rw [isAtRun_eq_false_of_stepsLeft hleft] at hrun
      exact Bool.false_ne_true (hrun hinRun)
    rw [hnone]
    exact ⟨[], .refl _, rfl, hleft⟩
  | succ steps ih =>
    have hsignal := canEndWait_of_messages runner
    simp only [goOn, Noted.value_bind]
    generalize (if 0 < runner.messages then Signal.message else Signal.timeout) = signal at *
    have hadvances := threadStep_advances signal moment runner
    obtain ⟨howner, hstop⟩ := hadvances.frame
    by_cases hleft : 0 < runner.stepsLeft
    · have hless := hadvances.stepsLeft_lt hstopping hleft
      obtain ⟨early, hearly⟩ := leads_threadStep hsignal moment hrun hleft
      obtain ⟨late, hlate, hafter, hended⟩ := ih (by omega) (hstop.trans hstopping)
        (fun hfalse => (Bool.false_ne_true hfalse).elim)
      exact ⟨early ++ late, hearly.append hlate, hafter.trans howner, hended⟩
    · have hrests := stepsLeft_eq_zero_iff.1 (Nat.eq_zero_of_not_pos hleft)
      rw [hadvances.eq_of_rests hrests]
      exact ih (by omega) hstopping hrun

/-! ## The whole call -/

/-- The call that stops the thread, made while nobody else moves, is a course of moves that ends
with its coming back. -/
theorem leads_shutdown {task : τ} {marks : List (Mark τ)}
    (h : Leads (ofTask task) marks ⟨runner, inRun⟩) (hfree : runner.isStopping = false)
    (moment : Moment) :
    ∃ more, Leads ⟨runner, inRun⟩ (more ++ [.returned (runner.shutdown moment).value.1])
      ⟨(runner.shutdown moment).value.2, false⟩ := by
  have hcoherent := coherent_of_leads h
  unfold shutdown
  split
  · rename_i hrunning
    have hflag : Leads ⟨runner, inRun⟩ [.flagged] ⟨runner.flag, inRun⟩ :=
      .snoc (.refl _) (.flag hrunning)
    have hwake : Leads ⟨runner, inRun⟩ [.flagged, .woke] ⟨runner.flag.wake, inRun⟩ :=
      .snoc hflag (.wake rfl)
    have hsteps : runner.flag.wake.stepsLeft ≤ stepsToEnd := stepsLeft_le _
    obtain ⟨late, hlate, howner, hleft⟩ := leads_goOn moment hsteps rfl hcoherent.isAtRun
    have hall := hwake.append hlate
    have habsent := (hcoherent.leads hall).absent_iff
    simp only [howner] at habsent
    rcases stepsLeft_eq_zero_iff.1 hleft with hnone | hended
    · cases habsent.1 hnone
    · exact ⟨_, .snoc hall (.join howner hended)⟩
  · rename_i hrunning
    rw [Bool.not_eq_true] at hrunning
    have hleft : runner.stepsLeft = 0 := by
      rw [stepsLeft_eq_zero_iff]
      rcases owner_of_refused hfree hrunning with hidle | hfinished
      · exact .inl (hcoherent.absent_iff.2 hidle)
      · exact .inr (hcoherent.hasEnded hfinished)
    have hnone : inRun = false := hcoherent.inRun_eq_false (isAtRun_eq_false_of_stepsLeft hleft)
    rw [hnone]
    exact ⟨[], .snoc (.refl _) (.refuse hfree hrunning)⟩

/-! ## Runs that come -/

omit [PeriodicTask τ ω] in
/-- The number of steps of the thread until it is about to run the task, if nothing tells it to
end. -/
def stepsToRun (runner : Runner τ) : Nat :=
  match runner.phase with
  | some .launching => 4
  | some (.planning _) => 3
  | some (.waiting _ _) => 2
  | some (.deciding _ _) => 1
  | _ => 0

theorem stepsToRun_lt {next : Runner τ} (h : runner.Advances .timeout next)
    (hreads : AlwaysReads τ) (hstopping : runner.stopping = false)
    (hleft : 0 < stepsToRun runner) : stepsToRun next < stepsToRun runner := by
  cases h with
  | breaksOff hphase hended hinterval => exact (hreads _ hinterval).elim
  | receives hsignal hphase => cases hsignal
  | loses hsignal hphase => cases hsignal
  | completes hphase => simp [stepsToRun, hphase] at hleft
  | rests hrests =>
    cases hphase : runner.phase with
    | none => simp [stepsToRun, hphase] at hleft
    | some phase => cases phase <;> simp_all [stepsToRun, hasEnded]
  | _ => simp_all [stepsToRun]

omit [PeriodicTask τ ω] in
theorem stepsToRun_pos {signal : Signal} (h : runner.canStep signal = true) :
    0 < stepsToRun runner := by
  cases hphase : runner.phase with
  | none => simp [canStep, hphase] at h
  | some phase => cases phase <;> simp_all [canStep, stepsToRun]

/-- As long as nothing tells the thread to end, the next run is within its reach. -/
theorem exists_leads_isAtRun {task : τ} {marks : List (Mark τ)} (hreads : AlwaysReads τ)
    (h : Leads (ofTask task) marks ⟨runner, false⟩) (howner : runner.owner = .started) :
    ∃ more last, Leads ⟨runner, false⟩ more ⟨last, false⟩ ∧ last.isAtRun = true ∧
      last.owner = .started := by
  generalize hsteps : stepsToRun runner = steps
  induction steps using Nat.strongRecOn generalizing runner marks with
  | _ steps ih =>
    have hcoherent := coherent_of_leads h
    have hstopping : runner.stopping = false := by
      rw [← Bool.not_eq_true, hcoherent.stopping_iff]
      exact fun htold => htold.2 howner
    have hquiet : runner.IsQuiet := hcoherent.isQuiet hstopping
    cases hatRun : runner.isAtRun with
    | true => exact ⟨_, _, .refl _, hatRun, howner⟩
    | false =>
      have hstep : runner.canStep .timeout = true := by
        cases hphase : runner.phase with
        | none => cases howner.symm.trans (hcoherent.absent_iff.1 hphase)
        | some phase =>
          cases phase with
          | running schedule => simp [Runner.isAtRun, hphase] at hatRun
          | exited => simp [IsQuiet, isLeaving, hphase] at hquiet
          | crashed => exact (not_crashed_of_leads hreads h hphase).elim
          | _ => simp [canStep, canEnd, hphase]
      have hmoves : Leads ⟨runner, false⟩ [.stepped]
          ⟨(runner.threadStep .timeout ⟨0, 0⟩).value, false⟩ :=
        .snoc (.refl _) (.step hstep _)
      have hadvances := threadStep_advances .timeout ⟨0, 0⟩ runner
      have hless := stepsToRun_lt hadvances hreads hstopping (stepsToRun_pos hstep)
      rw [hsteps] at hless
      obtain ⟨more, last, hmore, hlast⟩ := ih _ hless (h.append hmoves)
        (hadvances.frame.1.trans howner) rfl
      exact ⟨_, last, hmoves.append hmore, hlast⟩

theorem leads_start {task : τ} (hname : BadThreadName.find? (threadName task) = none) :
    Leads (ofTask task) [.started] ⟨⟨task, some .launching, .started, false, 0⟩, false⟩ := by
  have hstart : (Runner.ofTask task).start = .ok ⟨task, some .launching, .started, false, 0⟩ := by
    simp [start, Runner.ofTask, hname]
  exact .snoc (.refl _) (.start rfl hstart)

/-- A run can begin after the flag is stored, if the thread has looked at the flag before. -/
theorem exists_began_after_flag {task : τ} (hreads : AlwaysReads τ)
    (hname : BadThreadName.find? (threadName task) = none) :
    ∃ early mid last, Leads (ofTask task) (early ++ [.flagged]) mid ∧ Moves mid .began last := by
  have hfirst := leads_start hname
  obtain ⟨early, last, hearly, hatRun, hstarted⟩ := exists_leads_isAtRun hreads hfirst rfl
  have hflag := Leads.snoc (hfirst.append hearly) (.flag (isRunning_iff.2 hstarted))
  exact ⟨_, _, _, hflag, .enter hatRun⟩

/-- A task that does nothing, every second. -/
inductive Idler where
  | idler

instance : PeriodicTask Idler Entry where
  name _ := "idler"
  interval task := (some 1000000, task)
  run _ task := pure (.completed, task)
  log entry := entry

example : ∃ early mid last,
    Leads (ofTask Idler.idler) (early ++ [.flagged]) mid ∧ Moves mid .began last :=
  exists_began_after_flag (fun _ => Option.some_ne_none _) (by decide)

end Life

end PerfRelay
