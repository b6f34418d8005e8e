/-!
# Reading bytes

A reader takes what it needs from the front of the bytes at hand and gives the value that it read
with the bytes after it, or says why it stopped.  Readers that repeat themselves are loops: a state,
and a step that either finishes or moves on with fewer bytes and a new state.

Main results:

- Theorem `Loop.run_eq`: a loop is its first step followed by the rest of the loop.
- Theorem `Loop.induction`: induction along the steps of a loop.
- Theorem `Loop.run_length`: a loop gives no bytes back if its last step gives none back.
-/

namespace PerfRelay

universe u v w

/-- The result of a reader: a value and the bytes after it, or the reason why there is none. -/
abbrev Reading (ε : Type w) (α : Type u) := Except ε (α × List UInt8)

/-- What a step of a loop leads to. -/
inductive Turn (σ : Type u) (α : Type v) where
  | again (state : σ)
  | finish (value : α)

/-- A step that is repeated until it finishes.  A step that is to be repeated has taken something.
-/
structure Loop (ε : Type w) (σ : Type u) (α : Type v) where
  step : σ → List UInt8 → Reading ε (Turn σ α)
  moves : ∀ {state next : σ} {s rest : List UInt8},
    step state s = .ok (.again next, rest) → rest.length < s.length

/-- Repeats a step that takes something whenever it is to be repeated. -/
@[specialize]
def repeatStep {ε : Type w} {σ : Type u} {α : Type v}
    (step : σ → List UInt8 → Reading ε (Turn σ α))
    (moves : ∀ {state next : σ} {s rest : List UInt8},
      step state s = .ok (.again next, rest) → rest.length < s.length)
    (state : σ) (s : List UInt8) : Reading ε α :=
  match h : step state s with
  | .error stop => .error stop
  | .ok (.finish value, rest) => .ok (value, rest)
  | .ok (.again next, rest) =>
    have := moves h
    repeatStep step moves next rest
termination_by s.length

namespace Loop

variable {ε : Type w} {σ : Type u} {α : Type v}

/-- Repeats the step from a state on. -/
@[inline]
def run (loop : Loop ε σ α) (state : σ) (s : List UInt8) : Reading ε α :=
  repeatStep loop.step loop.moves state s

theorem run_eq (loop : Loop ε σ α) (state : σ) (s : List UInt8) :
    loop.run state s =
      match loop.step state s with
      | .error stop => .error stop
      | .ok (.finish value, rest) => .ok (value, rest)
      | .ok (.again next, rest) => loop.run next rest := by
  unfold run
  rw [repeatStep]
  split <;> simp_all

theorem run_of_error {loop : Loop ε σ α} {state : σ} {s : List UInt8} {stop : ε}
    (h : loop.step state s = .error stop) : loop.run state s = .error stop := by
  rw [run_eq, h]

theorem run_of_finish {loop : Loop ε σ α} {state : σ} {s rest : List UInt8} {value : α}
    (h : loop.step state s = .ok (.finish value, rest)) : loop.run state s = .ok (value, rest) := by
  rw [run_eq, h]

theorem run_of_again {loop : Loop ε σ α} {state next : σ} {s rest : List UInt8}
    (h : loop.step state s = .ok (.again next, rest)) : loop.run state s = loop.run next rest := by
  rw [run_eq, h]

/-- What holds wherever it holds after the next step holds everywhere. -/
theorem induction (loop : Loop ε σ α) {motive : σ → List UInt8 → Prop}
    (hstep : ∀ state s,
      (∀ next rest, loop.step state s = .ok (.again next, rest) → motive next rest) →
        motive state s)
    (state : σ) (s : List UInt8) : motive state s :=
  hstep state s fun next rest h =>
    have := loop.moves h
    induction loop hstep next rest
termination_by s.length

/-- A loop gives no bytes back if its last step gives none back. -/
theorem run_length {loop : Loop ε σ α}
    (hfinish : ∀ {state : σ} {s rest : List UInt8} {value : α},
      loop.step state s = .ok (.finish value, rest) → rest.length ≤ s.length)
    {state : σ} {s rest : List UInt8} {value : α} (h : loop.run state s = .ok (value, rest)) :
    rest.length ≤ s.length := by
  induction state, s using loop.induction with
  | hstep state s ih =>
    rw [run_eq] at h
    split at h
    · cases h
    · rename_i hturn
      cases h
      exact hfinish hturn
    · rename_i hturn
      have := loop.moves hturn
      have := ih _ _ hturn h
      omega

/-- A loop whose last step takes something takes something. -/
theorem run_length_lt {loop : Loop ε σ α}
    (hfinish : ∀ {state : σ} {s rest : List UInt8} {value : α},
      loop.step state s = .ok (.finish value, rest) → rest.length < s.length)
    {state : σ} {s rest : List UInt8} {value : α} (h : loop.run state s = .ok (value, rest)) :
    rest.length < s.length := by
  rw [run_eq] at h
  split at h
  · cases h
  · rename_i hturn
    cases h
    exact hfinish hturn
  · rename_i hturn
    have := loop.moves hturn
    have := run_length (fun hlast => Nat.le_of_lt (hfinish hlast)) h
    omega

end Loop

end PerfRelay
