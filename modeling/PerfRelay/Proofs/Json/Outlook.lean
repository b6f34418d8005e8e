import Mathlib.Data.List.TakeWhile
import PerfRelay.Json.Record

/-!
# What more bytes can make of a JSON text

Bytes arrive piece by piece, so a reader meets texts that stop anywhere.  Where a text stops is told
by its bytes alone: outside of words, in a string, after a digit of a number, or in a number that
still needs a digit.  The outlook of a reader at some bytes says what it makes of them and what it
will make of more of them, and ties both to the place where they stop.

Readers of JSON ask for more wherever a text stops, with one exception: a number that is passed over
counts as malformed if it stops where it needs a digit.

Main results:

- Theorem `Outlook.bind`: the outlook of one reader after another.
- Theorem `Outlook.run`: the outlook of a loop follows from the outlook of its steps.
-/

namespace PerfRelay.Json

/-! ## Where a text stops -/

/-- Where a text stops. -/
inductive Mode where
  /-- Outside of strings and numbers. -/
  | plain
  /-- After a digit of a number. -/
  | number
  /-- In a number that needs a digit, after a sign, a point or the letter of an exponent. -/
  | dangling
  /-- In a string. -/
  | quoted
  /-- In a string after a backslash. -/
  | escaped
deriving DecidableEq, Repr

namespace Mode

/-- Where a text outside of strings stops after one more byte. -/
def bareStep (inNumber : Bool) (b : UInt8) : Mode :=
  if b = byte '"' then .quoted
  else if isDigit b then .number
  else if b = byte '-' ∨ b = byte '+' ∨ b = byte '.' then .dangling
  else if inNumber ∧ (b = byte 'e' ∨ b = byte 'E') then .dangling
  else .plain

/-- Where a text stops after one more byte. -/
def step : Mode → UInt8 → Mode
  | .plain, b => bareStep false b
  | .number, b => bareStep true b
  | .dangling, b => bareStep false b
  | .quoted, b =>
    if b = byte '"' then .plain else if b = byte '\\' then .escaped else .quoted
  | .escaped, _ => .quoted

/-- Where a text stops after more bytes. -/
def after (mode : Mode) (s : List UInt8) : Mode :=
  s.foldl step mode

@[simp]
theorem after_nil (mode : Mode) : mode.after [] = mode :=
  rfl

@[simp]
theorem after_cons (mode : Mode) (b : UInt8) (s : List UInt8) :
    mode.after (b :: s) = (mode.step b).after s :=
  rfl

theorem after_append (mode : Mode) (s t : List UInt8) :
    mode.after (s ++ t) = (mode.after s).after t :=
  List.foldl_append

/-- Whether a byte stands between words. -/
def isMark (b : UInt8) : Bool :=
  b == byte ',' || b == byte ':' || b == byte '[' || b == byte ']' || b == byte '\x7b' ||
    b == byte '\x7d'

/-- A byte between words is no part of a string or number. -/
theorem bareStep_of_isMark {b : UInt8} (h : isMark b = true) (inNumber : Bool) :
    bareStep inNumber b = .plain := by
  simp only [isMark, Bool.or_eq_true, beq_iff_eq] at h
  rcases h with ((((rfl | rfl) | rfl) | rfl) | rfl) | rfl <;> cases inNumber <;> rfl

theorem bareStep_quote (inNumber : Bool) : bareStep inNumber (byte '"') = .quoted :=
  rfl

/-- A text stops between two words, or at a number that may be complete. -/
def AtRest (mode : Mode) : Prop := mode = .plain ∨ mode = .number

theorem AtRest.ne_dangling {mode : Mode} (h : mode.AtRest) : mode ≠ .dangling := by
  rcases h with rfl | rfl <;> simp

theorem AtRest.step {mode m : Mode} (h : mode.AtRest) {b : UInt8}
    (hb : ∀ inNumber, bareStep inNumber b = m) : mode.step b = m := by
  rcases h with rfl | rfl
  · exact hb false
  · exact hb true

end Mode

/-! ## White space -/

/-- There is nothing but white space. -/
def Blank (s : List UInt8) : Prop := skipSpace s = []

theorem blank_iff {s : List UInt8} : Blank s ↔ ∀ b ∈ s, isSpace b = true := by
  rw [Blank, skipSpace, List.dropWhile_eq_nil_iff]

theorem isAtEnd_iff {s : List UInt8} : isAtEnd s = true ↔ Blank s := by
  rw [isAtEnd, List.isEmpty_iff, Blank]

theorem Blank.left {s t : List UInt8} (h : Blank (s ++ t)) : Blank s := by
  rw [blank_iff] at *
  exact fun b hb => h b (List.mem_append_left t hb)

/-- White space is no part of a string or number. -/
theorem Mode.bareStep_of_isSpace {b : UInt8} (h : isSpace b = true) (inNumber : Bool) :
    bareStep inNumber b = .plain := by
  simp only [isSpace, Bool.or_eq_true, beq_iff_eq] at h
  rcases h with ((rfl | rfl) | rfl) | rfl <;> cases inNumber <;> rfl

theorem Mode.AtRest.after_blank {mode : Mode} (h : mode.AtRest) {s : List UInt8} (hs : Blank s) :
    (mode.after s).AtRest := by
  rw [blank_iff] at hs
  induction s generalizing mode with
  | nil => exact h
  | cons b s ih =>
    have hb : isSpace b = true := hs b (List.mem_cons_self ..)
    have hplain : mode.step b = .plain := h.step (bareStep_of_isSpace hb)
    rw [after_cons, hplain]
    exact ih (.inl rfl) fun c hc => hs c (List.mem_cons_of_mem b hc)

/-- What comes next is settled unless there is nothing but white space. -/
theorem next_cases (s : List UInt8) :
    (Blank s ∧ next s = .error .endOfInput) ∨
      ∃ p b rest, s = p ++ b :: rest ∧ Blank p ∧ ∀ t, next (s ++ t) = .ok (b, rest ++ t) := by
  cases hspace : skipSpace s with
  | nil => exact .inl ⟨hspace, by rw [next, hspace]⟩
  | cons b rest =>
    refine .inr ⟨s.takeWhile isSpace, b, rest, ?_, ?_, fun t => ?_⟩
    · rw [← hspace, skipSpace, List.takeWhile_append_dropWhile]
    · rw [blank_iff]
      exact fun c hc => List.mem_takeWhile_imp hc
    · have hmore : skipSpace (s ++ t) = b :: (rest ++ t) := by
        rw [skipSpace, List.dropWhile_append]
        rw [skipSpace] at hspace
        rw [hspace]
        rfl
      rw [next, hmore]

theorem next_of_blank {s : List UInt8} (h : Blank s) : next s = .error .endOfInput := by
  rw [next, h]

/-! ## Outlooks -/

/-- What a reader leaves behind when it has read a value. -/
structure Ending (α : Type) where
  /-- Where the bytes that it has taken may stop. -/
  modes : α → Mode → Prop
  /-- Whether more bytes may change the value, if nothing but white space follows. -/
  loose : α → Prop

/-- A value that stands, after which the bytes stop in one way only. -/
def Ending.fixed {α : Type} (mode : Mode) : Ending α := ⟨fun _ => (· = mode), fun _ => False⟩

/-- A value that more bytes may change. -/
def Ending.growing {α : Type} : Ending α := ⟨fun _ => Mode.AtRest, fun _ => True⟩

/-- A value that stands, after which a word has ended. -/
def Ending.rest {α : Type} : Ending α := ⟨fun _ => Mode.AtRest, fun _ => False⟩

/-- What a reader makes of the bytes that have arrived, and what it will make of more of them.  The
bytes before them stop in the given mode. -/
inductive Outlook {ε α : Type} (cause : ε → Stop) (read : List UInt8 → Reading ε α)
    (ending : Ending α) (mode : Mode) (s : List UInt8) : Prop where
  /-- It reads a value that stands. -/
  | settled {a : α} (p rest : List UInt8) (hs : s = p ++ rest)
      (hread : ∀ t, read (s ++ t) = .ok (a, rest ++ t)) (hmode : ending.modes a (mode.after p))
  /-- It reads a value that more bytes may change. -/
  | unsettled {a : α} (p rest : List UInt8) (hs : s = p ++ rest) (hrest : Blank rest)
      (hread : read s = .ok (a, rest)) (hloose : ending.loose a)
      (hmode : ending.modes a (mode.after p)) (hat : (mode.after p).AtRest)
  /-- It asks for more. -/
  | needsMore {e : ε} (hread : read s = .error e) (hcause : cause e = .endOfInput)
      (hmode : mode.after s ≠ .dangling)
  /-- It refuses the bytes, whatever follows. -/
  | refused (hread : ∀ t, ∃ e, read (s ++ t) = .error e)
  /-- It refuses a number that stops where it needs a digit. -/
  | cut {e : ε} (hread : read s = .error e) (hcause : cause e = .malformed)
      (hmode : mode.after s = .dangling)

/-- What a reader makes of nothing but white space, after a value that more bytes may change: it
asks for more, or reads a value of the same kind. -/
def Idle {ε α : Type} (cause : ε → Stop) (read : List UInt8 → Reading ε α) (ending : Ending α)
    (s : List UInt8) : Prop :=
  (∃ e, read s = .error e ∧ cause e = .endOfInput) ∨
    ∃ a rest, read s = .ok (a, rest) ∧ Blank rest ∧ ending.loose a

namespace Outlook

variable {ε ε' α β σ : Type} {cause : ε → Stop} {cause' : ε' → Stop} {mode : Mode}
  {s p rest : List UInt8}

/-- A reader that takes nothing. -/
theorem pure {ending : Ending α} {read : List UInt8 → Reading ε α} {a : α}
    (hread : ∀ s, read s = .ok (a, s)) (hmode : ending.modes a mode) :
    Outlook cause read ending mode s :=
  .settled [] s rfl (fun t => hread (s ++ t)) hmode

/-- A reader that goes on as another one once it has taken some bytes. -/
theorem advance {ending : Ending α} {read : List UInt8 → Reading ε α} (p : List UInt8)
    (next : List UInt8 → Reading ε α) (h : Outlook cause next ending (mode.after p) rest)
    (hread : ∀ t, read (p ++ (rest ++ t)) = next (rest ++ t)) :
    Outlook cause read ending mode (p ++ rest) := by
  have hstart : read (p ++ rest) = next rest := by simpa using hread []
  cases h with
  | @settled a q tail hs hnext hmode =>
    refine .settled (a := a) (p ++ q) tail (by rw [hs, List.append_assoc]) (fun t => ?_) ?_
    · rw [List.append_assoc, hread, hnext]
    · rwa [Mode.after_append]
  | @unsettled a q tail hs hrest hnext hloose hmode hat =>
    refine .unsettled (p ++ q) tail (by rw [hs, List.append_assoc]) hrest ?_ hloose ?_ ?_
    · rw [hstart, hnext]
    · rwa [Mode.after_append]
    · rwa [Mode.after_append]
  | needsMore hnext hcause hmode =>
    exact .needsMore (hstart.trans hnext) hcause (by rwa [Mode.after_append])
  | refused hnext =>
    refine .refused fun t => ?_
    rw [List.append_assoc, hread]
    exact hnext t
  | cut hnext hcause hmode =>
    exact .cut (hstart.trans hnext) hcause (by rwa [Mode.after_append])

/-- A reader that goes on after white space and one byte. -/
theorem advance_cons {ending : Ending α} {read : List UInt8 → Reading ε α} {b : UInt8}
    (next : List UInt8 → Reading ε α) (hs : s = p ++ b :: rest)
    (h : Outlook cause next ending ((mode.after p).step b) rest)
    (hread : ∀ t, read (s ++ t) = next (rest ++ t)) : Outlook cause read ending mode s := by
  subst hs
  have hmode : (mode.after p).step b = mode.after (p ++ [b]) := by
    rw [Mode.after_append, Mode.after_cons, Mode.after_nil]
  rw [hmode] at h
  have hwhole : Outlook cause read ending mode ((p ++ [b]) ++ rest) :=
    h.advance _ next fun t => by simpa using hread t
  simpa using hwhole

/-- A reader that goes on after white space and a byte between words. -/
theorem advance_mark {ending : Ending α} {read : List UInt8 → Reading ε α} {b : UInt8}
    (next : List UInt8 → Reading ε α) (hb : Mode.isMark b = true) (hs : s = p ++ b :: rest)
    (hp : (mode.after p).AtRest) (h : Outlook cause next ending .plain rest)
    (hread : ∀ t, read (s ++ t) = next (rest ++ t)) : Outlook cause read ending mode s := by
  refine advance_cons next hs ?_ hread
  rw [hp.step (Mode.bareStep_of_isMark hb)]
  exact h

/-- A reader that does what another one does. -/
theorem congr {ending : Ending α} {read other : List UInt8 → Reading ε α}
    (h : Outlook cause other ending mode s) (hread : ∀ t, read (s ++ t) = other (s ++ t)) :
    Outlook cause read ending mode s :=
  h.advance [] other hread

/-- A reader that looks at what comes next. -/
theorem of_next {ending : Ending α} {read : List UInt8 → Reading ε α} (hmode : mode.AtRest)
    (hblank : Blank s → ∃ e, read s = .error e ∧ cause e = .endOfInput)
    (hbyte : ∀ p b rest, s = p ++ b :: rest → (mode.after p).AtRest →
      (∀ t, Json.next (s ++ t) = .ok (b, rest ++ t)) → Outlook cause read ending mode s) :
    Outlook cause read ending mode s := by
  rcases next_cases s with ⟨hs, -⟩ | ⟨p, b, rest, hs, hp, hnext⟩
  · obtain ⟨e, hread, hcause⟩ := hblank hs
    exact .needsMore hread hcause (hmode.after_blank hs).ne_dangling
  · exact hbyte p b rest hs (hmode.after_blank hp) hnext

/-- What is loose stays loose where the next reader finds nothing but white space. -/
theorem of_idle {ending : Ending β} {next : List UInt8 → Reading ε β}
    {read : List UInt8 → Reading ε β} (hs : s = p ++ rest) (hrest : Blank rest)
    (hat : (mode.after p).AtRest) (hread : read s = next rest)
    (hnext : Outlook cause next ending (mode.after p) rest) (hidle : Idle cause next ending rest) :
    Outlook cause read ending mode s := by
  rcases hidle with ⟨e, hstop, hcause⟩ | ⟨b, tail, hok, htail, hloose⟩
  · refine .needsMore (hread.trans hstop) hcause ?_
    rw [hs, Mode.after_append]
    exact (hat.after_blank hrest).ne_dangling
  · cases hnext with
    | @settled a q other hq hstable hmode =>
      have hsame : (a, other) = (b, tail) := by
        have := (hstable []).symm.trans (by simpa using hok)
        simpa using this
      cases hsame
      refine .unsettled (p ++ q) tail (by rw [hs, hq, List.append_assoc]) htail
        (hread.trans hok) hloose ?_ ?_
      · rwa [Mode.after_append]
      · rw [Mode.after_append]
        exact hat.after_blank (hq ▸ hrest).left
    | @unsettled a q other hq _ hother _ hmode hqat =>
      have hsame : (a, other) = (b, tail) := by simpa [hok, eq_comm] using hother
      cases hsame
      refine .unsettled (p ++ q) tail (by rw [hs, hq, List.append_assoc]) htail
        (hread.trans hok) hloose ?_ ?_
      · rwa [Mode.after_append]
      · rwa [Mode.after_append]
    | needsMore hstop => simp [hok] at hstop
    | refused hall =>
      obtain ⟨e, hstop⟩ := hall []
      simp [hok] at hstop
    | cut hstop => simp [hok] at hstop

/-- One reader after another, as the value tells that the first one has read. -/
theorem bind {first : List UInt8 → Reading ε' α} {whole : List UInt8 → Reading ε β}
    {ending' : Ending α} {ending : Ending β} (f : ε' → ε)
    (next : α → List UInt8 → Reading ε β)
    (hf : ∀ e, cause (f e) = cause' e)
    (herror : ∀ {s e}, first s = .error e → whole s = .error (f e))
    (hok : ∀ {s a rest}, first s = .ok (a, rest) → whole s = next a rest)
    (hfirst : Outlook cause' first ending' mode s)
    (hnext : ∀ {a m rest}, ending'.modes a m → Outlook cause (next a) ending m rest)
    (hidle : ∀ {a rest}, ending'.loose a → Blank rest → Idle cause (next a) ending rest) :
    Outlook cause whole ending mode s := by
  cases hfirst with
  | settled p rest hs hread hmode =>
    subst hs
    exact (hnext hmode).advance p _ fun t => by
      rw [← List.append_assoc]
      exact hok (hread t)
  | unsettled p rest hs hrest hread hloose hmode hat =>
    exact of_idle hs hrest hat (hok hread) (hnext hmode) (hidle hloose hrest)
  | needsMore hread hcause hmode =>
    exact .needsMore (herror hread) ((hf _).trans hcause) hmode
  | refused hread =>
    refine .refused fun t => ?_
    obtain ⟨e, he⟩ := hread t
    exact ⟨f e, herror he⟩
  | cut hread hcause hmode =>
    exact .cut (herror hread) ((hf _).trans hcause) hmode

/-- A reader that makes something else of what another one has read. -/
theorem map {read : List UInt8 → Reading ε α} {whole : List UInt8 → Reading ε β}
    {ending' : Ending α} {ending : Ending β} (g : α → β)
    (hwhole : ∀ s, whole s = (read s).map fun (a, rest) => (g a, rest))
    (hmodes : ∀ {a m}, ending'.modes a m → ending.modes (g a) m)
    (hloose : ∀ {a}, ending'.loose a → ending.loose (g a))
    (h : Outlook cause read ending' mode s) : Outlook cause whole ending mode s := by
  refine h.bind id (fun a rest => .ok (g a, rest)) (fun _ => rfl)
    (fun hread => by rw [hwhole, hread]; rfl) (fun hread => by rw [hwhole, hread]; rfl)
    (fun hmode => .pure (fun _ => rfl) (hmodes hmode)) fun ha hrest => ?_
  exact .inr ⟨_, _, rfl, hrest, hloose ha⟩

theorem weaken {read : List UInt8 → Reading ε α} {ending' ending : Ending α}
    (h : Outlook cause read ending' mode s)
    (hmodes : ∀ {a m}, ending'.modes a m → ending.modes a m)
    (hloose : ∀ {a}, ending'.loose a → ending.loose a) : Outlook cause read ending mode s :=
  h.map id (fun s => by cases read s <;> rfl) hmodes hloose

/-- What a step leaves behind: the next state or the value at the end. -/
def turnEnding (inv : σ → Mode → Prop) (again : Prop) (ending : Ending α) : Ending (Turn σ α) where
  modes
    | .again next => inv next
    | .finish a => ending.modes a
  loose
    | .again _ => again
    | .finish a => ending.loose a

/-- The outlook of a loop.  The induction is along its steps: each one is settled and the rest of
the loop goes on where it has stopped, or it is loose and the rest of the loop finds white space. -/
theorem run {loop : Loop ε σ α} {ending : Ending α} (inv : σ → Mode → Prop) (again : Prop)
    (hstep : ∀ {state m} s, inv state m →
      Outlook cause (loop.step state) (turnEnding inv again ending) m s)
    (hidle : ∀ {state rest}, again → Blank rest → Idle cause (loop.run state) ending rest)
    {state : σ} (hinv : inv state mode) : Outlook cause (loop.run state) ending mode s := by
  induction state, s using loop.induction generalizing mode with
  | hstep state s ih =>
    cases hstep s hinv with
    | @settled turn p rest hs hread hmode =>
      have hstart : loop.step state s = .ok (turn, rest) := by simpa using hread []
      cases turn with
      | again next =>
        have hrest := ih next rest hstart hmode
        subst hs
        exact hrest.advance p _ fun t => by
          rw [← List.append_assoc]
          exact Loop.run_of_again (hread t)
      | finish a => exact .settled p rest hs (fun t => Loop.run_of_finish (hread t)) hmode
    | @unsettled turn p rest hs hrest hread hloose hmode hat =>
      cases turn with
      | again next =>
        exact of_idle hs hrest hat (Loop.run_of_again hread) (ih next rest hread hmode)
          (hidle hloose hrest)
      | finish a => exact .unsettled p rest hs hrest (Loop.run_of_finish hread) hloose hmode hat
    | needsMore hread hcause hmode => exact .needsMore (Loop.run_of_error hread) hcause hmode
    | refused hread =>
      refine .refused fun t => ?_
      obtain ⟨e, he⟩ := hread t
      exact ⟨e, Loop.run_of_error he⟩
    | cut hread hcause hmode => exact .cut (Loop.run_of_error hread) hcause hmode

end Outlook

end PerfRelay.Json
