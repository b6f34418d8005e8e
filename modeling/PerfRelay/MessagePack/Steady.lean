import PerfRelay.MessagePack.Skip
import PerfRelay.MessagePack.Text

/-!
# Steady readers

Bytes arrive piece by piece, so it matters what a reader makes of a beginning.  A steady reader
reads the same value from more bytes and stops for the same fault, and while fewer bytes arrive than
it says are missing, it goes on missing some.

Main results:

- Theorem `Steady.run`: a loop of steady steps is steady.
- Theorems `steady_readText` and `steady_skipValue`: texts are read and values are passed over
  steadily.
-/

namespace PerfRelay.MessagePack

/-- A reader whose results hold for longer bytes as well. -/
structure Steady {α : Type} (read : List UInt8 → Reading Stop α) : Prop where
  /-- What was read stays what is read. -/
  ok : ∀ {s rest more : List UInt8} {a : α},
    read s = .ok (a, rest) → read (s ++ more) = .ok (a, rest ++ more)
  /-- Fewer bytes than are missing do not suffice. -/
  missing : ∀ {s more : List UInt8} {n : Nat}, read s = .error (.endOfInput n) → more.length < n →
    ∃ m, read (s ++ more) = .error (.endOfInput m)
  /-- A fault that is not the end of the bytes stays. -/
  fault : ∀ {s more : List UInt8} {stop : Stop}, read s = .error stop →
    (∀ n, stop ≠ .endOfInput n) → read (s ++ more) = .error stop

/-! ## Ways to build steady readers -/

namespace Steady

variable {α β : Type}

/-- A reader that always gives the same value and takes nothing. -/
theorem pure (a : α) : Steady fun s => .ok (a, s) where
  ok h := by cases h; rfl
  missing h := by cases h
  fault h := by cases h

/-- A reader that always stops, but not for the end of the bytes. -/
theorem stop {stop : Stop} (h : ∀ n, stop ≠ .endOfInput n) :
    Steady (α := α) fun _ => .error stop where
  ok h := by cases h
  missing hstop := by
    cases hstop
    exact (h _ rfl).elim
  fault hstop _ := hstop

/-- A reader that goes on as the value tells that another one has read. -/
theorem bind {read : List UInt8 → Reading Stop α} {whole : List UInt8 → Reading Stop β}
    (hread : Steady read) (next : α → List UInt8 → Reading Stop β)
    (hwhole : ∀ s, whole s =
      match read s with
      | .error stop => .error stop
      | .ok (a, rest) => next a rest)
    (hnext : ∀ a, Steady (next a)) : Steady whole where
  ok {s _ more _} h := by
    rw [hwhole] at h ⊢
    cases hs : read s with
    | error => simp [hs] at h
    | ok result =>
      simp only [hs] at h
      simp only [hread.ok hs, (hnext _).ok h]
  missing {s more n} h hlt := by
    rw [hwhole] at h ⊢
    cases hs : read s with
    | error stop =>
      simp only [hs, Except.error.injEq] at h
      subst h
      obtain ⟨m, hm⟩ := hread.missing hs hlt
      exact ⟨m, by simp only [hm]⟩
    | ok result =>
      simp only [hs] at h
      simp only [hread.ok hs]
      exact (hnext _).missing h hlt
  fault {s more stop} h hstop := by
    rw [hwhole] at h ⊢
    cases hs : read s with
    | error other =>
      simp only [hs, Except.error.injEq] at h
      subst h
      simp only [hread.fault hs hstop]
    | ok result =>
      simp only [hs] at h
      simp only [hread.ok hs]
      exact (hnext _).fault h hstop

/-- A reader that makes something else of what another one has read. -/
theorem map {read : List UInt8 → Reading Stop α} {whole : List UInt8 → Reading Stop β}
    (hread : Steady read) (f : α → β)
    (hwhole : ∀ s, whole s = (read s).map fun (a, rest) => (f a, rest)) : Steady whole := by
  refine hread.bind (fun a rest => .ok (f a, rest)) (fun s => ?_) fun a => pure (f a)
  rw [hwhole]
  cases read s <;> rfl

/-- A loop of steady steps is steady. -/
theorem run {σ : Type} (loop : Loop Stop σ α) (hstep : ∀ state, Steady (loop.step state))
    (state : σ) : Steady (loop.run state) where
  ok {s rest more a} h := by
    induction state, s using loop.induction with
    | hstep state s ih =>
      rw [Loop.run_eq] at h
      split at h
      · cases h
      · rename_i hturn
        cases h
        exact Loop.run_of_finish ((hstep state).ok hturn)
      · rename_i hturn
        rw [Loop.run_of_again ((hstep state).ok hturn)]
        exact ih _ _ hturn h
  missing {s more n} h hless := by
    induction state, s using loop.induction with
    | hstep state s ih =>
      rw [Loop.run_eq] at h
      split at h
      · rename_i hturn
        cases h
        obtain ⟨m, hm⟩ := (hstep state).missing hturn hless
        exact ⟨m, Loop.run_of_error hm⟩
      · cases h
      · rename_i hturn
        rw [Loop.run_of_again ((hstep state).ok hturn)]
        exact ih _ _ hturn h
  fault {s more stop} h hstop := by
    induction state, s using loop.induction with
    | hstep state s ih =>
      rw [Loop.run_eq] at h
      split at h
      · rename_i hturn
        cases h
        exact Loop.run_of_error ((hstep state).fault hturn hstop)
      · cases h
      · rename_i hturn
        rw [Loop.run_of_again ((hstep state).ok hturn)]
        exact ih _ _ hturn h

end Steady

/-! ## The readers -/

theorem steady_dropBytes (n : Nat) : Steady (dropBytes n) where
  ok {s rest more a} h := by
    induction n generalizing s with
    | zero => cases h; rfl
    | succ n ih =>
      cases s with
      | nil => cases h
      | cons b s => exact ih h
  missing {s more m} h hlt := by
    induction n generalizing s with
    | zero => cases h
    | succ n ih =>
      cases s with
      | nil =>
        cases h
        have hdrop : ∀ (n : Nat) (more : List UInt8), more.length < n →
            ∃ m, dropBytes n more = .error (.endOfInput m) := by
          intro n
          induction n with
          | zero => intro more hmore; cases hmore
          | succ n ih =>
            intro more hmore
            cases more with
            | nil => exact ⟨n + 1, rfl⟩
            | cons b more => exact ih more (Nat.lt_of_succ_lt_succ hmore)
        exact hdrop _ more hlt
      | cons b s => exact ih h
  fault {s more stop} h hstop := by
    induction n generalizing s with
    | zero => cases h
    | succ n ih =>
      cases s with
      | nil =>
        cases h
        exact (hstop _ rfl).elim
      | cons b s => exact ih h

theorem steady_takeBytes (n : Nat) : Steady (takeBytes n) where
  ok {s rest more bytes} h := by
    have hlength := takeBytes_length h
    unfold takeBytes at h ⊢
    cases hdrop : dropBytes n s with
    | error => rw [hdrop] at h; cases h
    | ok result =>
      rw [hdrop] at h
      cases h
      rw [(steady_dropBytes n).ok hdrop, List.take_append_of_le_length (by omega)]
      rfl
  missing {s more m} h hlt := by
    unfold takeBytes at h ⊢
    cases hdrop : dropBytes n s with
    | error stop =>
      rw [hdrop] at h
      cases h
      obtain ⟨m, hm⟩ := (steady_dropBytes n).missing hdrop hlt
      exact ⟨m, by rw [hm]; rfl⟩
    | ok result => rw [hdrop] at h; cases h
  fault {s more stop} h hstop := by
    unfold takeBytes at h ⊢
    cases hdrop : dropBytes n s with
    | error other =>
      rw [hdrop] at h
      cases h
      rw [(steady_dropBytes n).fault hdrop hstop]
      rfl
    | ok result => rw [hdrop] at h; cases h

theorem steady_readHead : Steady readHead := by
  have htail : ∀ marker, Steady fun s => readHead (marker :: s) := by
    intro marker
    cases hform : form? marker with
    | none =>
      simp only [readHead, hform]
      exact .stop (by simp)
    | some form =>
      cases form with
      | plain head =>
        simp only [readHead, hform]
        exact .pure head
      | sized width head =>
        refine (steady_takeBytes width).map (fun bytes => head (bigEndian bytes)) fun s => ?_
        simp only [readHead, hform]
  refine ⟨fun {s _ _ _} h => ?_, fun {s more n} h hlt => ?_, fun {s more stop} h hstop => ?_⟩
  · cases s with
    | nil => cases h
    | cons marker s => exact (htail marker).ok h
  · cases s with
    | nil =>
      cases h
      have hmore : more = [] := List.length_eq_zero_iff.1 (by omega)
      exact ⟨1, by rw [hmore]; rfl⟩
    | cons marker s => exact (htail marker).missing h hlt
  · cases s with
    | nil =>
      cases h
      exact (hstop 1 rfl).elim
    | cons marker s => exact (htail marker).fault h hstop

theorem steady_readTextBody {otherwise : Stop} (h : ∀ n, otherwise ≠ .endOfInput n)
    (length : Nat) : Steady (readTextBody otherwise length) := by
  refine (steady_takeBytes length).bind
    (fun bytes rest =>
      (Utf8.decode? bytes).elim (.error otherwise) fun text => .ok (text, rest))
    (fun s => ?_) fun bytes => ?_
  · unfold readTextBody
    cases takeBytes length s with
    | error => rfl
    | ok result => cases hdecode : Utf8.decode? result.1 <;> simp [hdecode]
  · cases Utf8.decode? bytes with
    | none => exact .stop h
    | some text => exact .pure text

theorem steady_readTextAfter (head : Head) : Steady (readTextAfter head) := by
  change Steady fun s => readTextAfter head s
  cases head with
  | text length => exact steady_readTextBody (by simp) length
  | binary length => exact steady_readTextBody (by simp) length
  | _ => exact .stop (by simp)

theorem steady_readText : Steady readText :=
  steady_readHead.bind readTextAfter
    (fun s => by unfold readText; cases readHead s <;> rfl) steady_readTextAfter

theorem steady_skipBody (enclosing : Nat) (pending : List Nat) (head : Head) :
    Steady (skipBody enclosing pending head) := by
  change Steady fun s => skipBody enclosing pending head s
  cases head with
  | scalar => exact .pure _
  | unsigned n => exact .pure _
  | text length => exact (steady_dropBytes length).map (fun _ => goOn pending) fun _ => rfl
  | binary length => exact (steady_dropBytes length).map (fun _ => goOn pending) fun _ => rfl
  | extension length =>
    by_cases hdeep : depthLimit ≤ enclosing + pending.length
    · simp only [skipBody, hdeep, if_true]
      exact .stop (by simp)
    · refine (steady_dropBytes (1 + length)).map (fun _ => goOn pending) fun s => ?_
      simp only [skipBody, hdeep, if_false]
  | array count =>
    by_cases hdeep : depthLimit ≤ enclosing + pending.length
    · simp only [skipBody, hdeep, if_true]
      exact .stop (by simp)
    · simp only [skipBody, hdeep, if_false]
      exact .pure _
  | map count =>
    by_cases hdeep : depthLimit ≤ enclosing + pending.length
    · simp only [skipBody, hdeep, if_true]
      exact .stop (by simp)
    · simp only [skipBody, hdeep, if_false]
      exact .pure _

theorem steady_skipStep (enclosing : Nat) (state : List Nat) :
    Steady (skipStep enclosing state) := by
  cases state with
  | nil => exact .pure _
  | cons count stack =>
    refine steady_readHead.bind (skipBody enclosing ((count - 1) :: stack)) (fun s => ?_)
      fun head => steady_skipBody enclosing ((count - 1) :: stack) head
    simp only [skipStep]
    cases readHead s <;> rfl

theorem steady_skipValue (enclosing : Nat) : Steady (skipValue enclosing) :=
  Steady.run (skipLoop enclosing) (steady_skipStep enclosing) [1]

end PerfRelay.MessagePack
