import PerfRelay.Proofs.Runner.Moves

/-!
# What the moves of a thread and its owner keep

Some facts about a runner hold at any time, whoever moved last: where its thread stands fits what
the owner is doing, and the wake-up message is not lost.  The marks of the moves so far tell the
rest.

Main results:

- Theorem `Coherent.moves`: what holds at any time is kept by every move.
- Theorem `Recorded.moves`: what the marks tell is kept right by every move.
-/

namespace PerfRelay

namespace Runner

variable {τ ω : Type}

/-- Whether the thread is about to end, or has ended as it should. -/
def isLeaving (runner : Runner τ) : Bool :=
  match runner.phase with
  | some (.deciding _ woken) => woken
  | some .exited => true
  | _ => false

/-- The thread is sure to notice that it is to end: a message is there, or it has noticed. -/
def IsAwake (runner : Runner τ) : Prop :=
  0 < runner.messages ∨ runner.isLeaving = true ∨ runner.hasEnded = true

/-- Nothing has told the thread to end. -/
def IsQuiet (runner : Runner τ) : Prop :=
  runner.messages = 0 ∧ runner.isLeaving = false

/-- A signal that can end the wait, if the thread waits. -/
def CanEndWait (runner : Runner τ) (signal : Signal) : Prop :=
  ∀ schedule wait, runner.phase = some (.waiting schedule wait) → runner.canEnd signal = true

section Advances

variable [PeriodicTask τ ω] {runner next : Runner τ} {signal : Signal}

theorem Advances.phase_eq_none_iff (h : runner.Advances signal next) :
    next.phase = none ↔ runner.phase = none := by
  cases h with
  | rests hphase => exact Iff.rfl
  | _ => simp_all

/-- Where no thread is left, nothing changes. -/
theorem Advances.eq_of_rests (h : runner.Advances signal next)
    (hrests : runner.phase = none ∨ runner.hasEnded = true) : next = runner := by
  cases h with
  | rests hphase => rfl
  | _ => simp_all [hasEnded]

/-- A thread that nothing has told to end goes on. -/
theorem Advances.isQuiet (h : runner.Advances signal next) (hquiet : runner.IsQuiet)
    (hstopping : runner.stopping = false) (howner : runner.owner = .started)
    (hsignal : runner.CanEndWait signal) : next.IsQuiet := by
  obtain ⟨hmessages, hleaving⟩ := hquiet
  cases h with
  | rests hphase => exact ⟨hmessages, hleaving⟩
  | receives hmessage hphase =>
    have hcan := hsignal _ _ hphase
    rw [hmessage, canEnd, hmessages] at hcan
    cases hcan
  | loses hlost hphase =>
    have hcan := hsignal _ _ hphase
    rw [hlost, canEnd, howner, hmessages] at hcan
    cases hcan
  | ends hphase hstops =>
    rcases hstops with hwoken | hstop
    · rw [isLeaving, hphase] at hleaving
      rw [hwoken] at hleaving
      cases hleaving
    · rw [hstopping] at hstop
      cases hstop
  | _ => exact ⟨hmessages, rfl⟩

/-- A thread that is sure to notice that it is to end notices it, or stays sure. -/
theorem Advances.isAwake (h : runner.Advances signal next) (hawake : runner.IsAwake)
    (hstopping : runner.stopping = true) : next.IsAwake := by
  cases h with
  | rests hphase => exact hawake
  | breaksOff hphase hended hinterval => exact .inr (.inr rfl)
  | receives hmessage hphase => exact .inr (.inl rfl)
  | loses hlost hphase => exact .inr (.inl rfl)
  | ends hphase hstops => exact .inr (.inl rfl)
  | goesOn hphase hgoesOn =>
    rw [hstopping] at hgoesOn
    cases hgoesOn
  | _ =>
    -- The thread did neither wait nor decide, so a message is still there.
    simp_all [IsAwake, isLeaving, hasEnded]

end Advances

theorem start_cases [PeriodicTask τ ω] {runner next : Runner τ} (h : runner.start = .ok next) :
    (runner.owner = .idle ∧ next = { runner with phase := some .launching, owner := .started }) ∨
      (runner.owner ≠ .idle ∧ next = runner) := by
  by_cases howner : runner.owner = .idle
  · refine .inl ⟨howner, ?_⟩
    rw [start, howner] at h
    simp only at h
    split at h
    · cases h
    · exact (Except.ok.inj h).symm
  · rw [start_of_started howner] at h
    exact .inr ⟨howner, (Except.ok.inj h).symm⟩

theorem join_runner [PeriodicTask τ ω] (runner : Runner τ) :
    runner.join.value.2 = { runner with owner := .finished } := by
  unfold join
  split <;> rfl

/-- A thread that has ended as it should gives the task back. -/
theorem join_result [PeriodicTask τ ω] {runner : Runner τ} (h : runner.phase = some .exited) :
    runner.join.value.1 = some runner.task := by
  rw [join, h]
  rfl

theorem isRunning_iff {runner : Runner τ} : runner.isRunning = true ↔ runner.owner = .started := by
  rw [isRunning, beq_iff_eq]

/-- A call to stop that comes back at once comes before the start or after the end. -/
theorem owner_of_refused {runner : Runner τ} (hfree : runner.isStopping = false)
    (hrunning : runner.isRunning = false) : runner.owner = .idle ∨ runner.owner = .finished := by
  rw [isStopping, Bool.or_eq_false_iff, beq_eq_false_iff_ne, beq_eq_false_iff_ne] at hfree
  rw [isRunning, beq_eq_false_iff_ne] at hrunning
  cases howner : runner.owner with
  | idle => exact .inl rfl
  | finished => exact .inr rfl
  | started => exact (hrunning howner).elim
  | flagging => exact (hfree.1 howner).elim
  | joining => exact (hfree.2 howner).elim

end Runner

namespace Life

open Runner

variable {τ ω : Type}

/-! ## What holds at any time -/

/-- What holds of a runner at any time. -/
structure Coherent (life : Life τ) : Prop where
  absent_iff : life.runner.phase = none ↔ life.runner.owner = .idle
  stopping_iff : life.runner.stopping = true ↔
    life.runner.owner ≠ .idle ∧ life.runner.owner ≠ .started
  isAtRun : life.inRun = true → life.runner.isAtRun = true
  isQuiet : life.runner.stopping = false → life.runner.IsQuiet
  isAwake : life.runner.owner = .joining → life.runner.IsAwake
  hasEnded : life.runner.owner = .finished → life.runner.hasEnded = true

theorem coherent_ofTask (task : τ) : (ofTask task).Coherent where
  absent_iff := iff_of_true rfl rfl
  stopping_iff := iff_of_false Bool.false_ne_true fun h => h.1 rfl
  isAtRun h := by cases h
  isQuiet _ := ⟨rfl, rfl⟩
  isAwake h := by cases h
  hasEnded h := by cases h

variable {life next : Life τ} {mark : Mark τ}

theorem Coherent.inRun_eq_false (h : life.Coherent) (hphase : life.runner.isAtRun = false) :
    life.inRun = false := by
  rw [← Bool.not_eq_true]
  intro hrun
  rw [h.isAtRun hrun] at hphase
  cases hphase

theorem Coherent.owner_eq_started (h : life.Coherent) (hstop : life.runner.stopping = false)
    (hidle : life.runner.owner ≠ .idle) : life.runner.owner = .started := by
  apply Decidable.byContradiction
  intro hother
  have htold := h.stopping_iff.2 ⟨hidle, hother⟩
  rw [hstop] at htold
  cases htold

theorem canEndWait_of_canStep {runner : Runner τ} {signal : Signal}
    (h : runner.canStep signal = true) : runner.CanEndWait signal := by
  intro schedule wait hphase
  rwa [canStep, hphase] at h

theorem canEndWait_of_isAtRun {runner : Runner τ} (h : runner.isAtRun = true) (signal : Signal) :
    runner.CanEndWait signal := by
  intro schedule wait hphase
  rw [Runner.isAtRun, hphase] at h
  cases h

theorem isAtRun_of_canStep {runner : Runner τ} {signal : Signal}
    (h : runner.canStep signal = true) : runner.isAtRun = false := by
  unfold Runner.isAtRun
  split
  · rename_i hphase
    rw [canStep, hphase] at h
    cases h
  · rfl

variable [PeriodicTask τ ω]

/-- A step of the thread keeps it. -/
theorem Coherent.advances {runner after : Runner τ} {inRun : Bool} {signal : Signal}
    (h : Coherent ⟨runner, inRun⟩) (hadvances : runner.Advances signal after)
    (hsignal : runner.CanEndWait signal) : Coherent ⟨after, false⟩ := by
  obtain ⟨howner, hstopping⟩ := hadvances.frame
  constructor
  · rw [hadvances.phase_eq_none_iff, howner]
    exact h.absent_iff
  · rw [hstopping, howner]
    exact h.stopping_iff
  · intro hfalse
    cases hfalse
  · intro hstop
    rw [hstopping] at hstop
    by_cases hidle : runner.owner = .idle
    · rw [hadvances.eq_of_rests (.inl (h.absent_iff.2 hidle))]
      exact h.isQuiet hstop
    · exact hadvances.isQuiet (h.isQuiet hstop) hstop (h.owner_eq_started hstop hidle) hsignal
  · intro hjoining
    rw [howner] at hjoining
    have hstop : runner.stopping = true := h.stopping_iff.2 (by simp [hjoining])
    exact hadvances.isAwake (h.isAwake hjoining) hstop
  · intro hfinished
    rw [howner] at hfinished
    have hended : runner.hasEnded = true := h.hasEnded hfinished
    rw [hadvances.eq_of_rests (.inr hended)]
    exact hended

/-- Starting the thread keeps it. -/
theorem Coherent.launched {runner : Runner τ} {inRun : Bool} (h : Coherent ⟨runner, inRun⟩)
    (howner : runner.owner = .idle) :
    Coherent ⟨{ runner with phase := some .launching, owner := .started }, inRun⟩ := by
  have hphase : runner.phase = none := h.absent_iff.2 howner
  have hstop : runner.stopping = false := by
    rw [← Bool.not_eq_true, h.stopping_iff]
    exact fun htold => htold.1 howner
  have hrun : inRun = false := h.inRun_eq_false (by rw [Runner.isAtRun, hphase])
  constructor
  · exact iff_of_false (by simp) (by simp)
  · exact iff_of_false (by simp [hstop]) (by simp)
  · intro hinRun
    rw [hrun] at hinRun
    cases hinRun
  · intro _
    exact ⟨(h.isQuiet hstop).1, rfl⟩
  · intro hjoining
    cases hjoining
  · intro hfinished
    cases hfinished

/-- The moves of a call that stops the thread keep it.  The phase of the thread stays as it is. -/
theorem Coherent.stops {runner : Runner τ} {inRun : Bool} (h : Coherent ⟨runner, inRun⟩)
    {owner : Owner} {messages : Nat} (howner : runner.owner ≠ .idle)
    (hstopping : owner ≠ .idle ∧ owner ≠ .started)
    (hjoining : owner = .joining → 0 < messages)
    (hfinished : owner = .finished → runner.hasEnded = true) :
    Coherent ⟨{ runner with owner, messages, stopping := true }, inRun⟩ := by
  have hphase : runner.phase ≠ none := by
    intro hnone
    exact howner (h.absent_iff.1 hnone)
  constructor
  · exact iff_of_false hphase hstopping.1
  · exact iff_of_true rfl hstopping
  · exact h.isAtRun
  · intro hstop
    cases hstop
  · intro hjoins
    exact .inl (hjoining hjoins)
  · exact hfinished

/-- Every move keeps it. -/
theorem Coherent.moves (h : life.Coherent) (hmoves : Moves life mark next) : next.Coherent := by
  cases hmoves with
  | start hfree hstart =>
    rcases start_cases hstart with ⟨howner, rfl⟩ | ⟨-, rfl⟩
    · exact h.launched howner
    · exact h
  | flag hrunning =>
    have howner := isRunning_iff.1 hrunning
    exact h.stops (by simp [howner]) (by simp) (by simp) (by simp)
  | @wake runner inRun howner =>
    have hwake : runner.wake = { runner with
        owner := .joining, messages := runner.messages + 1, stopping := true } := by
      rw [Runner.wake, ← h.stopping_iff.2 (by simp [howner])]
    rw [hwake]
    exact h.stops (by simp [howner]) (by simp) (by simp) (by simp)
  | @join runner inRun howner hended =>
    have hjoin : runner.join.value.2 = { runner with owner := .finished, stopping := true } := by
      rw [join_runner, ← h.stopping_iff.2 (by simp [howner])]
    rw [hjoin]
    exact h.stops (by simp [howner]) (by simp) (by simp) fun _ => hended
  | refuse hfree hrunning => exact h
  | enter hphase =>
    exact ⟨h.absent_iff, h.stopping_iff, fun _ => hphase, h.isQuiet, h.isAwake, h.hasEnded⟩
  | leave hphase signal moment =>
    exact h.advances (threadStep_advances signal moment _) (canEndWait_of_isAtRun hphase signal)
  | step hstep moment =>
    have hrun := h.inRun_eq_false (isAtRun_of_canStep hstep)
    simp only at hrun
    rw [hrun]
    exact h.advances (threadStep_advances _ moment _) (canEndWait_of_canStep hstep)

theorem Coherent.leads {first last : Life τ} {marks : List (Mark τ)} (h : first.Coherent)
    (hleads : Leads first marks last) : last.Coherent := by
  induction hleads with
  | refl => exact h
  | snoc _ hmoves ih => exact ih.moves hmoves

theorem coherent_of_leads {task : τ} {marks : List (Mark τ)} {last : Life τ}
    (h : Leads (ofTask task) marks last) : last.Coherent :=
  (coherent_ofTask task).leads h

/-! ## What the marks tell -/

/-- What the marks so far tell about a runner. -/
structure Recorded (marks : List (Mark τ)) (life : Life τ) : Prop where
  started_iff : .started ∈ marks ↔ life.runner.owner ≠ .idle
  flagged_iff : .flagged ∈ marks ↔ life.runner.stopping = true
  woke_iff : .woke ∈ marks ↔ life.runner.owner = .joining ∨ life.runner.owner = .finished
  stopped_iff : Mark.Stopped marks ↔ life.runner.owner = .finished
  countP_began : marks.countP Mark.isBegan = marks.countP Mark.isEnded + life.inRun.toNat

omit [PeriodicTask τ ω] in
theorem recorded_ofTask (task : τ) : Recorded [] (ofTask task) where
  started_iff := iff_of_false List.not_mem_nil fun h => h rfl
  flagged_iff := iff_of_false List.not_mem_nil Bool.false_ne_true
  woke_iff := iff_of_false List.not_mem_nil (by simp [ofTask, Runner.ofTask])
  stopped_iff := iff_of_false Mark.not_stopped_nil (by simp [ofTask, Runner.ofTask])
  countP_began := rfl

/-- Every move keeps the records right. -/
theorem Recorded.moves {marks : List (Mark τ)} (h : Recorded marks life)
    (hmoves : Moves life mark next) : Recorded (marks ++ [mark]) next := by
  obtain ⟨hstarted, hflagged, hwoke, hhanded, hcount⟩ := h
  cases hmoves with
  | start hfree hstart =>
    rcases start_cases hstart with ⟨howner, rfl⟩ | ⟨howner, rfl⟩
    · constructor <;> simp_all
    · constructor <;> simp_all
  | flag hrunning =>
    have howner := isRunning_iff.1 hrunning
    constructor <;> simp_all [Runner.flag]
  | wake howner =>
    constructor <;> simp_all [Runner.wake]
  | join howner hended =>
    constructor <;> simp_all [join_runner]
  | refuse hfree hrunning =>
    rcases owner_of_refused hfree hrunning with howner | howner
    · constructor <;> simp_all
    · constructor <;> simp_all
  | enter hphase =>
    constructor <;> simp_all
  | @leave runner hphase signal moment =>
    obtain ⟨howner, hstopping⟩ := (threadStep_advances signal moment runner).frame
    constructor <;> simp_all
  | @step runner inRun signal hstep moment =>
    obtain ⟨howner, hstopping⟩ := (threadStep_advances signal moment runner).frame
    constructor <;> simp_all

theorem recorded_of_leads {task : τ} {marks : List (Mark τ)} {last : Life τ}
    (h : Leads (ofTask task) marks last) : Recorded marks last := by
  generalize hfirst : ofTask task = first at h
  induction h with
  | refl =>
    rw [← hfirst]
    exact recorded_ofTask task
  | snoc _ hmoves ih => exact ih.moves hmoves

end Life

end PerfRelay
