import PerfRelay.Proofs.Json.Words

/-!
# The outlook of values that are passed over

Arrays and objects are passed over word by word, with those that are open on a stack.  Between two
words a text is at rest, so at the end of the bytes the reader asks for more there; only a number
inside of them is refused where it needs a digit.

Main results:

- Theorem `outlook_skipValue`: the outlook of a value that is passed over.
-/

namespace PerfRelay.Json

variable {mode : Mode} {s : List UInt8}

theorem expect_of_blank {wanted : UInt8} (h : Blank s) : expect wanted s = .error .endOfInput := by
  rw [expect, next_of_blank h]

theorem expect_of_next {wanted : UInt8} {rest : List UInt8} (h : next s = .ok (wanted, rest)) :
    expect wanted s = .ok ((), rest) := by
  rw [expect, h]
  exact if_pos rfl

theorem expect_of_next_ne {wanted b : UInt8} {rest : List UInt8} (h : next s = .ok (b, rest))
    (hb : b ≠ wanted) : expect wanted s = .error .malformed := by
  rw [expect, h]
  exact if_neg hb

/-- One wanted byte, which is no letter of an exponent. -/
theorem outlook_expect (wanted : UInt8) {m : Mode} (hmode : mode.AtRest)
    (hwanted : ∀ inNumber, Mode.bareStep inNumber wanted = m) :
    Outlook id (expect wanted) (.fixed m) mode s := by
  refine .of_next hmode (fun hs => ⟨.endOfInput, expect_of_blank hs, rfl⟩)
    fun p b rest hs hp hnext => ?_
  by_cases hb : b = wanted
  · subst hb
    refine .advance_cons (fun s => .ok ((), s)) hs ?_ fun t => expect_of_next (hnext t)
    rw [hp.step hwanted]
    exact .pure (fun _ => rfl) rfl
  · exact .refused fun t => ⟨.malformed, expect_of_next_ne (hnext t) hb⟩

namespace Treatment

/-- The rest of the name of a member that is passed over, its opening quote gone, with the colon
after it. -/
def closeKey (s : List UInt8) : Reading Stop Unit :=
  match skipString s with
  | .error stop => .error stop
  | .ok (name, rest) => (expect (byte ':') rest).map fun (_, rest) => (name, rest)

theorem readKey_of_expect {u : Unit} {rest : List UInt8} (h : expect (byte '"') s = .ok (u, rest)) :
    pass.readKey s = closeKey rest := by
  have hname : pass.name rest = skipString rest := rfl
  rw [readKey, h, closeKey]
  simp only [hname]
  cases skipString rest <;> rfl

theorem outlook_closeKey : Outlook id closeKey (.fixed .plain) .quoted s := by
  refine outlook_skipString.bind id
    (fun name rest => (expect (byte ':') rest).map fun (_, rest) => (name, rest))
    (fun _ => rfl) (fun hread => by rw [closeKey, hread]; rfl)
    (fun hread => by rw [closeKey, hread]) (fun {name m rest} hm => ?_) fun h => h.elim
  obtain rfl : m = .plain := hm
  exact (outlook_expect (byte ':') (.inl rfl) (Mode.bareStep_of_isMark rfl)).map (fun _ => name)
    (fun _ => rfl) id id

/-- The name of a member that is passed over, with the colon after it. -/
theorem outlook_readKey (hmode : mode.AtRest) :
    Outlook id pass.readKey (.fixed .plain) mode s := by
  refine (outlook_expect (byte '"') hmode Mode.bareStep_quote).bind id
    (fun _ rest => closeKey rest) (fun _ => rfl) (fun hread => by rw [readKey, hread]; rfl)
    readKey_of_expect (fun {a m rest} hm => ?_) fun h => h.elim
  obtain rfl : m = .quoted := hm
  exact outlook_closeKey

theorem readKey_of_blank (h : Blank s) : pass.readKey s = .error .endOfInput := by
  rw [readKey, expect_of_blank h]

/-- How the steps of a value that is passed over leave the bytes. -/
def stepEnding : Ending (Turn (Position Unit Unit) Unit) :=
  Outlook.turnEnding (fun _ => Mode.AtRest) True .growing

theorem stepEnding_loose (turn : Turn (Position Unit Unit) Unit) : stepEnding.loose turn := by
  cases turn <;> exact trivial

theorem stepEnding_modes {turn : Turn (Position Unit Unit) Unit} {m : Mode} (h : m.AtRest) :
    stepEnding.modes turn m := by
  cases turn <;> exact h

/-- An array, its bracket gone.  Whether it is empty is not settled before its next word. -/
theorem outlook_openArray (stack : List (Frame Unit Unit)) :
    Outlook id (pass.openArray stack) stepEnding .plain s := by
  rcases next_cases s with ⟨hs, -⟩ | ⟨p, b, rest, hs, hp, hnext⟩
  · refine .unsettled (a := .again (.before (.array [] :: stack))) [] s rfl hs ?_
      (stepEnding_loose _) (stepEnding_modes (.inl rfl)) (.inl rfl)
    rw [openArray, expect_of_blank hs]
  · have hat : (Mode.plain.after p).AtRest := Mode.AtRest.after_blank (.inl rfl) hp
    by_cases hb : b = byte ']'
    · subst hb
      refine .advance_mark (fun s => .ok (.again (.after stack (pass.array [])), s)) rfl hs hat
        ?_ ?_
      · exact .pure (fun _ => rfl) (stepEnding_modes (.inl rfl))
      · intro t
        rw [openArray, expect_of_next (hnext t)]
    · refine .settled (a := .again (.before (.array [] :: stack))) [] s rfl (fun t => ?_)
        (stepEnding_modes (.inl rfl))
      rw [openArray, expect_of_next_ne (hnext t) hb]

/-- An object, its brace gone. -/
theorem outlook_openObject (stack : List (Frame Unit Unit)) :
    Outlook id (pass.openObject stack) stepEnding .plain s := by
  apply Outlook.of_next (.inl rfl)
  · intro hs
    refine ⟨.endOfInput, ?_, rfl⟩
    rw [openObject, expect_of_blank hs]
    simp only [readKey_of_blank hs]
    rfl
  · intro p b rest hs hp hnext
    by_cases hb : b = byte '\x7d'
    · subst hb
      refine .advance_mark (fun s => .ok (.again (.after stack (pass.object [])), s)) rfl hs hp
        ?_ ?_
      · exact .pure (fun _ => rfl) (stepEnding_modes (.inl rfl))
      · intro t
        rw [openObject, expect_of_next (hnext t)]
    · have hkey : Outlook id (fun s => (pass.readKey s).map fun (name, rest) =>
          (.again (.before (.object [] name :: stack)), rest)) stepEnding .plain s :=
        (outlook_readKey (.inl rfl)).map
          (fun name => Turn.again (Position.before (.object [] name :: stack))) (fun s => rfl)
          (fun hm => stepEnding_modes (.inl hm)) False.elim
      refine hkey.congr fun t => ?_
      rw [openObject, expect_of_next_ne (hnext t) hb]

/-- Where a value is to come. -/
theorem outlook_step_before (stack : List (Frame Unit Unit)) (hmode : mode.AtRest) :
    Outlook id (pass.step 0 (.before stack)) stepEnding mode s := by
  apply Outlook.of_next hmode
  · intro hs
    refine ⟨.endOfInput, ?_, rfl⟩
    simp only [step, next_of_blank hs]
  · intro p b rest hs hp hnext
    by_cases hbracket : b = byte '['
    · subst hbracket
      refine .advance_mark (pass.openArray stack) rfl hs hp ?_ ?_
      · exact outlook_openArray stack
      · intro t
        simp only [step, hnext]
        rfl
    · by_cases hbrace : b = byte '\x7b'
      · subst hbrace
        refine .advance_mark (pass.openObject stack) rfl hs hp ?_ ?_
        · exact outlook_openObject stack
        · intro t
          simp only [step, hnext]
          rfl
      · refine .advance_cons (fun s => (skipScalar b s).map fun (v, rest) =>
          (.again (.after stack v), rest)) hs ?_ ?_
        · exact (outlook_skipScalar b hp).map (fun v => Turn.again (Position.after stack v))
            (fun s => rfl) stepEnding_modes fun _ => stepEnding_loose _
        · intro t
          simp only [step, hnext, if_neg hbracket, if_neg hbrace]
          rfl

/-- Where an item of an array has ended. -/
theorem outlook_step_after_array (items : List Unit) (stack : List (Frame Unit Unit)) (v : Unit)
    (hmode : mode.AtRest) :
    Outlook id (pass.step 0 (.after (.array items :: stack) v)) stepEnding mode s := by
  apply Outlook.of_next hmode
  · intro hs
    refine ⟨.endOfInput, ?_, rfl⟩
    simp only [step, next_of_blank hs]
  · intro p b rest hs hp hnext
    by_cases hcomma : b = byte ','
    · subst hcomma
      refine .advance_mark
        (fun s => .ok (.again (.before (.array (v :: items) :: stack)), s)) rfl hs hp ?_ ?_
      · exact .pure (fun _ => rfl) (stepEnding_modes (.inl rfl))
      · intro t
        simp only [step, hnext]
        rfl
    · by_cases hbracket : b = byte ']'
      · subst hbracket
        refine .advance_mark
          (fun s => .ok (.again (.after stack (pass.array (v :: items).reverse)), s)) rfl hs hp
          ?_ ?_
        · exact .pure (fun _ => rfl) (stepEnding_modes (.inl rfl))
        · intro t
          simp only [step, hnext]
          rfl
      · apply Outlook.refused
        intro t
        refine ⟨.malformed, ?_⟩
        simp only [step, hnext, if_neg hcomma, if_neg hbracket]

/-- Where the value of a member has ended. -/
theorem outlook_step_after_object (members : List (Unit × Unit)) (name : Unit)
    (stack : List (Frame Unit Unit)) (v : Unit) (hmode : mode.AtRest) :
    Outlook id (pass.step 0 (.after (.object members name :: stack) v)) stepEnding mode s := by
  apply Outlook.of_next hmode
  · intro hs
    refine ⟨.endOfInput, ?_, rfl⟩
    simp only [step, next_of_blank hs]
  · intro p b rest hs hp hnext
    by_cases hcomma : b = byte ','
    · subst hcomma
      refine .advance_mark (fun s => (pass.readKey s).map fun (other, rest) =>
        (.again (.before (.object ((name, v) :: members) other :: stack)), rest)) rfl hs hp ?_ ?_
      · exact (outlook_readKey (.inl rfl)).map
          (fun other =>
            Turn.again (Position.before (.object ((name, v) :: members) other :: stack)))
          (fun s => rfl) (fun hm => stepEnding_modes (.inl hm)) False.elim
      · intro t
        simp only [step, hnext]
        rfl
    · by_cases hbrace : b = byte '\x7d'
      · subst hbrace
        refine .advance_mark
          (fun s => .ok (.again (.after stack (pass.object ((name, v) :: members).reverse)), s))
          rfl hs hp ?_ ?_
        · exact .pure (fun _ => rfl) (stepEnding_modes (.inl rfl))
        · intro t
          simp only [step, hnext]
          rfl
      · apply Outlook.refused
        intro t
        refine ⟨.malformed, ?_⟩
        simp only [step, hnext, if_neg hcomma, if_neg hbrace]

theorem outlook_step (position : Position Unit Unit) (hmode : mode.AtRest) :
    Outlook id (pass.step 0 position) stepEnding mode s := by
  rcases position with stack | ⟨_ | ⟨items | ⟨members, name⟩, stack⟩, v⟩
  · exact outlook_step_before stack hmode
  · exact .pure (a := .finish v) (fun _ => rfl) hmode
  · exact outlook_step_after_array items stack v hmode
  · exact outlook_step_after_object members name stack v hmode

/-- Where only white space follows, a value has ended if nothing is open, and else has not. -/
theorem idle_run (position : Position Unit Unit) (h : Blank s) :
    Idle id ((pass.loop 0).run position) .growing s := by
  rcases position with stack | ⟨_ | ⟨items | ⟨members, name⟩, stack⟩, v⟩
  · refine .inl ⟨.endOfInput, Loop.run_of_error ?_, rfl⟩
    simp only [loop, step, next_of_blank h]
  · exact .inr ⟨v, s, Loop.run_of_finish rfl, h, trivial⟩
  · refine .inl ⟨.endOfInput, Loop.run_of_error ?_, rfl⟩
    simp only [loop, step, next_of_blank h]
  · refine .inl ⟨.endOfInput, Loop.run_of_error ?_, rfl⟩
    simp only [loop, step, next_of_blank h]

end Treatment

/-- A value that is passed over. -/
theorem outlook_skipValue (hmode : mode.AtRest) :
    Outlook id skipValue .growing mode s :=
  Outlook.run (fun _ => Mode.AtRest) True
    (fun {position _} _ hm => Treatment.outlook_step position hm)
    (fun {position _} _ hrest => Treatment.idle_run position hrest) hmode

end PerfRelay.Json
