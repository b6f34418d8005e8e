import PerfRelay.MessagePack.Head

/-!
# Passing over MessagePack values

A value that nobody asked for is passed over whatever its kind; strings need not be texts.  The
reader keeps for every array and map that is still open how many values it still has to pass over,
and only so many of them may be inside one another.

Main results:

- Theorem `skipValue_length`: a value that was passed over took something.
-/

namespace PerfRelay.MessagePack

/-- The number of arrays, maps and application values inside one another that is too great. -/
def depthLimit : Nat := 1024

/-- How it goes on with so many values to pass over in each open array and map, the innermost one
first: those that are complete are closed. -/
@[inline]
def goOn (pending : List Nat) : Turn (List Nat) Unit :=
  match pending.dropWhile (· == 0) with
  | [] => .finish ()
  | pending => .again pending

/-- Passes over what belongs to a head.  The values to follow it are `pending`, in the arrays and
maps that are open around it up to the whole value, and `enclosing` others are open around that. -/
@[inline]
def skipBody (enclosing : Nat) (pending : List Nat) (head : Head) (rest : List UInt8) :
    Reading Stop (Turn (List Nat) Unit) :=
  match head with
  | .scalar => .ok (goOn pending, rest)
  | .unsigned _ => .ok (goOn pending, rest)
  | .text length => (dropBytes length rest).map fun (_, rest) => (goOn pending, rest)
  | .binary length => (dropBytes length rest).map fun (_, rest) => (goOn pending, rest)
  | .extension length =>
    if depthLimit ≤ enclosing + pending.length then .error .tooDeep
    else (dropBytes (1 + length) rest).map fun (_, rest) => (goOn pending, rest)
  | .array count =>
    if depthLimit ≤ enclosing + pending.length then .error .tooDeep
    else .ok (goOn (count :: pending), rest)
  | .map count =>
    if depthLimit ≤ enclosing + pending.length then .error .tooDeep
    else .ok (goOn (2 * count :: pending), rest)

/-- Passes over the next value around which `enclosing` arrays and maps are open.  The last number
of the state stands for the whole value. -/
@[inline]
def skipStep (enclosing : Nat) : List Nat → List UInt8 → Reading Stop (Turn (List Nat) Unit)
  | [], s => .ok (.finish (), s)
  | count :: stack, s =>
    match readHead s with
    | .error stop => .error stop
    | .ok (head, rest) => skipBody enclosing ((count - 1) :: stack) head rest

theorem skipBody_length {enclosing : Nat} {pending : List Nat} {head : Head} {s rest : List UInt8}
    {turn : Turn (List Nat) Unit} (h : skipBody enclosing pending head s = .ok (turn, rest)) :
    rest.length ≤ s.length := by
  unfold skipBody at h
  split at h
  · cases h; exact Nat.le_refl _
  · cases h; exact Nat.le_refl _
  · rename_i length
    cases hdrop : dropBytes length s with
    | error => rw [hdrop] at h; cases h
    | ok => rw [hdrop] at h; cases h; have := dropBytes_length hdrop; omega
  · rename_i length
    cases hdrop : dropBytes length s with
    | error => rw [hdrop] at h; cases h
    | ok => rw [hdrop] at h; cases h; have := dropBytes_length hdrop; omega
  · rename_i length
    split at h
    · cases h
    · cases hdrop : dropBytes (1 + length) s with
      | error => rw [hdrop] at h; cases h
      | ok => rw [hdrop] at h; cases h; have := dropBytes_length hdrop; omega
  · split at h
    · cases h
    · cases h; exact Nat.le_refl _
  · split at h
    · cases h
    · cases h; exact Nat.le_refl _

theorem skipStep_length {enclosing count : Nat} {stack : List Nat} {s rest : List UInt8}
    {turn : Turn (List Nat) Unit} (h : skipStep enclosing (count :: stack) s = .ok (turn, rest)) :
    rest.length < s.length := by
  simp only [skipStep] at h
  split at h
  · cases h
  · rename_i hhead
    have := readHead_length hhead
    have := skipBody_length h
    omega

/-- The values to pass over. -/
@[inline]
def skipLoop (enclosing : Nat) : Loop Stop (List Nat) Unit where
  step := skipStep enclosing
  moves := by
    intro state next s rest h
    cases state with
    | nil => cases h
    | cons => exact skipStep_length h

/-- Passes over a value around which `enclosing` arrays and maps are open. -/
def skipValue (enclosing : Nat) (s : List UInt8) : Reading Stop Unit :=
  (skipLoop enclosing).run [1] s

theorem skipValue_length {enclosing : Nat} {s rest : List UInt8} {u : Unit}
    (h : skipValue enclosing s = .ok (u, rest)) : rest.length < s.length := by
  rw [skipValue, Loop.run_eq] at h
  split at h
  · cases h
  · rename_i hstep
    cases h
    exact skipStep_length hstep
  · rename_i hstep
    have hlt := skipStep_length hstep
    have := Loop.run_length (fun {state _ _ _} hfinish => by
      cases state with
      | nil => cases hfinish; exact Nat.le_refl _
      | cons => exact Nat.le_of_lt (skipStep_length hfinish)) h
    omega

end PerfRelay.MessagePack
