import PerfRelay.Proofs.Json.Values

/-!
# The outlook of records

A record is read member by member, or field by field in an array.  If every field asks for more
wherever its bytes stop, so does the record, with the one exception that a member makes that is
passed over.

Main results:

- Theorem `foreseen_record`: a record of foreseen fields is foreseen.
- Theorem `Fold.Foreseen.run_append`: what is read stands.
- Theorem `Fold.Foreseen.document_beginning`: the beginnings of a document that is read.
-/

namespace PerfRelay.Json

variable {σ : Type} {mode : Mode} {s : List UInt8}

/-- What a reader makes of some bytes, and of more of them, is known wherever they stop. -/
def Fold.Foreseen (fold : Fold σ) : Prop :=
  ∀ (state : σ) {mode : Mode} (s : List UInt8), mode.AtRest →
    Outlook Prod.fst (fold.run state) .rest mode s

/-! ## Texts -/

/-- A text: anything else is refused, whatever follows. -/
theorem outlook_readText (hmode : mode.AtRest) : Outlook id readText (.fixed .plain) mode s := by
  apply Outlook.of_next hmode
  · intro hs
    refine ⟨.endOfInput, ?_, rfl⟩
    rw [readText, next_of_blank hs]
  · intro p b rest hs hp hnext
    by_cases hb : b = byte '"'
    · subst hb
      refine .advance_cons readString hs ?_ ?_
      · rw [hp.step Mode.bareStep_quote]
        exact outlook_readString
      · intro t
        rw [readText, hnext]
        exact if_pos rfl
    · apply Outlook.refused
      intro t
      refine ⟨refuse b (rest ++ t), ?_⟩
      rw [readText, hnext]
      exact if_neg hb

/-- A reader of values that enters them into a state. -/
theorem foreseen_ofReader {α : Type} {read : List UInt8 → Reading Stop α} {enter : α → σ → σ}
    (hread : ∀ {s rest : List UInt8} {a : α}, read s = .ok (a, rest) → rest.length < s.length)
    (h : ∀ {mode : Mode} {s : List UInt8}, mode.AtRest → Outlook id read .rest mode s) :
    (Fold.ofReader read enter hread).Foreseen := by
  intro state mode s hmode
  exact (h hmode).bind (·, state) (fun a rest => .ok (enter a state, rest)) (fun _ => rfl)
    (fun herror => by simp only [Fold.ofReader, herror])
    (fun hok => by simp only [Fold.ofReader, hok]) (fun hm => .pure (fun _ => rfl) hm)
    fun hloose => hloose.elim

/-! ## Members -/

theorem nextOf_of_blank {state : σ} (h : Blank s) :
    nextOf state s = .error (.endOfInput, state) := by
  rw [nextOf, next_of_blank h]
  rfl

theorem nextOf_of_next {state : σ} {b : UInt8} {rest : List UInt8} (h : next s = .ok (b, rest)) :
    nextOf state s = .ok (b, rest) := by
  rw [nextOf, h]
  rfl

theorem outlook_readName (hmode : mode.AtRest) : Outlook id readName (.fixed .plain) mode s := by
  refine (outlook_expect (byte '"') hmode Mode.bareStep_quote).bind id
    (fun _ rest => readString rest) (fun _ => rfl) (fun hread => by rw [readName, hread]; rfl)
    (fun hread => by rw [readName, hread]) (fun {a m rest} hm => ?_) fun h => h.elim
  obtain rfl : m = .quoted := hm
  exact outlook_readString

variable {fields : List (Field σ)}

/-- The value of a member without a field. -/
def passMember (progress : Progress σ) (s : List UInt8) : Reading (Stop × σ) (Progress σ) :=
  match skipValue s with
  | .error stop => .error (stop, progress.state)
  | .ok (_, rest) => .ok ({ progress with started := true }, rest)

theorem outlook_passMember (progress : Progress σ) (hmode : mode.AtRest) :
    Outlook Prod.fst (passMember progress) .growing mode s :=
  (outlook_skipValue hmode).bind (·, progress.state)
    (fun _ rest => .ok ({ progress with started := true }, rest)) (fun _ => rfl)
    (fun hread => by rw [passMember, hread]) (fun hread => by rw [passMember, hread])
    (fun hm => .pure (fun _ => rfl) hm) fun _ hrest => .inr ⟨_, _, rfl, hrest, trivial⟩

/-- The value of a member with a field. -/
def enterMember (field : Field σ) (progress : Progress σ) (name : String) (s : List UInt8) :
    Reading (Stop × σ) (Progress σ) :=
  match field.value.run progress.state s with
  | .error stop => .error stop
  | .ok (state, rest) => .ok (⟨state, name :: progress.seen, true⟩, rest)

theorem outlook_enterMember {field : Field σ} (hfield : field.value.Foreseen)
    (progress : Progress σ) (name : String) (hmode : mode.AtRest) :
    Outlook Prod.fst (enterMember field progress name) .growing mode s :=
  (hfield progress.state s hmode).bind id
    (fun state rest => .ok (⟨state, name :: progress.seen, true⟩, rest)) (fun _ => rfl)
    (fun hread => by rw [enterMember, hread]; rfl) (fun hread => by rw [enterMember, hread])
    (fun hm => .pure (fun _ => rfl) hm) fun hloose => hloose.elim

/-- The colon after the name of a member and the value after that. -/
theorem outlook_readMemberValue (hfields : ∀ field ∈ fields, field.value.Foreseen)
    (progress : Progress σ) (name : String) :
    Outlook Prod.fst (readMemberValue fields progress name) .growing .plain s := by
  have hcolon : ∀ s, Outlook id (expect (byte ':')) (.fixed .plain) .plain s :=
    fun s => outlook_expect (byte ':') (.inl rfl) (Mode.bareStep_of_isMark rfl)
  cases hfield : fields.find? (·.name = name) with
  | none =>
    refine (hcolon s).bind (·, progress.state) (fun _ rest => passMember progress rest)
      (fun _ => rfl) (fun hread => ?_) (fun hread => ?_) (fun hm => ?_) fun h => h.elim
    · simp only [readMemberValue, hfield, hread]
    · simp only [readMemberValue, hfield, hread]
      unfold passMember
      cases skipValue _ <;> rfl
    · exact outlook_passMember progress (.inl hm)
  | some field =>
    by_cases hseen : name ∈ progress.seen
    · apply Outlook.refused
      intro t
      refine ⟨(.mismatch, progress.state), ?_⟩
      simp only [readMemberValue, hfield, if_pos hseen]
    · refine (hcolon s).bind (·, progress.state)
        (fun _ rest => enterMember field progress name rest) (fun _ => rfl) (fun hread => ?_)
        (fun hread => ?_) (fun hm => ?_) fun h => h.elim
      · simp only [readMemberValue, hfield, if_neg hseen, hread]
      · simp only [readMemberValue, hfield, if_neg hseen, hread]
        unfold enterMember
        cases field.value.run progress.state _ <;> rfl
      · exact outlook_enterMember (hfields field (List.mem_of_find?_eq_some hfield)) progress name
          (.inl hm)

theorem outlook_readMember (hfields : ∀ field ∈ fields, field.value.Foreseen)
    (progress : Progress σ) (hmode : mode.AtRest) :
    Outlook Prod.fst (readMember fields progress) .growing mode s := by
  refine (outlook_readName hmode).bind (·, progress.state)
    (fun name rest => readMemberValue fields progress name rest) (fun _ => rfl)
    (fun hread => by rw [readMember, hread]) (fun hread => by rw [readMember, hread])
    (fun {name m rest} hm => ?_) fun h => h.elim
  obtain rfl : m = .plain := hm
  exact outlook_readMemberValue hfields progress name

/-- How the steps of an object leave the bytes. -/
def memberEnding : Ending (Turn (Progress σ) σ) :=
  Outlook.turnEnding (fun _ => Mode.AtRest) True .rest

theorem outlook_memberStep (hfields : ∀ field ∈ fields, field.value.Foreseen)
    (progress : Progress σ) (hmode : mode.AtRest) :
    Outlook Prod.fst (memberStep fields progress) memberEnding mode s := by
  have hmember : ∀ {mode : Mode} {s : List UInt8}, mode.AtRest →
      Outlook Prod.fst (fun s => (readMember fields progress s).map fun read =>
        (.again read.1, read.2)) memberEnding mode s := fun hmode =>
    (outlook_readMember hfields progress hmode).map Turn.again (fun s => rfl) id id
  apply Outlook.of_next hmode
  · intro hs
    refine ⟨(.endOfInput, progress.state), ?_, rfl⟩
    rw [memberStep, nextOf_of_blank hs]
  · intro p b rest hs hp hnext
    have hnextOf : ∀ t, nextOf progress.state (s ++ t) = .ok (b, rest ++ t) :=
      fun t => nextOf_of_next (hnext t)
    by_cases hbrace : b = byte '\x7d'
    · subst hbrace
      refine .advance_mark (fun s => .ok (.finish progress.state, s)) rfl hs hp ?_ ?_
      · exact .pure (a := .finish progress.state) (fun _ => rfl) (.inl rfl)
      · intro t
        rw [memberStep, hnextOf]
        exact if_pos rfl
    · by_cases hstarted : progress.started = true
      · by_cases hcomma : b = byte ','
        · subst hcomma
          refine .advance_mark (fun s => (readMember fields progress s).map fun read =>
            (.again read.1, read.2)) rfl hs hp ?_ ?_
          · exact hmember (.inl rfl)
          · intro t
            simp only [memberStep, hnextOf, if_neg hbrace, if_pos hstarted]
            exact if_pos trivial
        · apply Outlook.refused
          intro t
          refine ⟨(.malformed, progress.state), ?_⟩
          simp only [memberStep, hnextOf, if_neg hbrace, if_pos hstarted, if_neg hcomma]
      · refine (hmember hmode).congr fun t => ?_
        simp only [memberStep, hnextOf, if_neg hbrace, if_neg hstarted]

/-- The members of an object, its brace gone. -/
theorem outlook_memberLoop (hfields : ∀ field ∈ fields, field.value.Foreseen)
    (progress : Progress σ) (hmode : mode.AtRest) :
    Outlook Prod.fst ((memberLoop fields).run progress) .rest mode s := by
  refine Outlook.run (fun _ => Mode.AtRest) True
    (fun {progress _} _ hm => outlook_memberStep hfields progress hm)
    (fun {progress rest} _ hrest => ?_) hmode
  refine .inl ⟨(.endOfInput, progress.state), Loop.run_of_error ?_, rfl⟩
  simp only [memberLoop, memberStep, nextOf_of_blank hrest]

/-! ## Fields in an array -/

/-- The bracket after the last field that has come. -/
theorem outlook_closeFields {first : Bool} {state : σ} {p rest : List UInt8}
    (hs : s = p ++ byte ']' :: rest) (hp : (mode.after p).AtRest)
    (hread : ∀ t, readFields first fields state (s ++ t) = .ok (state, rest ++ t)) :
    Outlook Prod.fst (readFields first fields state) .rest mode s := by
  refine .advance_mark (fun s => .ok (state, s)) rfl hs hp ?_ hread
  exact .pure (fun _ => rfl) (.inl rfl)

/-- A field of a record that is written as an array, and those after it. -/
def readFieldAndRest (field : Field σ) (fields : List (Field σ)) (state : σ) (s : List UInt8) :
    Reading (Stop × σ) σ :=
  match field.value.run state s with
  | .error stop => .error stop
  | .ok (state, rest) => readFields false fields state rest

/-- The fields of a record that is written as an array, its bracket gone.  The induction is on the
fields: each one is settled before the next one comes. -/
theorem outlook_readFields (first : Bool) (state : σ)
    (hfields : ∀ field ∈ fields, field.value.Foreseen) (hmode : mode.AtRest) :
    Outlook Prod.fst (readFields first fields state) .rest mode s := by
  induction fields generalizing first state mode s with
  | nil =>
    apply Outlook.of_next hmode
    · intro hs
      refine ⟨(.endOfInput, state), ?_, rfl⟩
      rw [readFields, nextOf_of_blank hs]
    · intro p b rest hs hp hnext
      by_cases hb : b = byte ']'
      · subst hb
        refine outlook_closeFields hs hp fun t => ?_
        rw [readFields, nextOf_of_next (hnext t)]
        exact if_pos rfl
      · apply Outlook.refused
        intro t
        refine ⟨(.malformed, state), ?_⟩
        rw [readFields, nextOf_of_next (hnext t)]
        exact if_neg hb
  | cons field fields ih =>
    have hrest : ∀ {mode : Mode} {s : List UInt8}, mode.AtRest →
        Outlook Prod.fst (readFieldAndRest field fields state) .rest mode s := fun hmode =>
      (hfields field (List.mem_cons_self ..) state _ hmode).bind id
        (fun state rest => readFields false fields state rest) (fun _ => rfl)
        (fun hread => by rw [readFieldAndRest, hread]; rfl)
        (fun hread => by rw [readFieldAndRest, hread])
        (fun hm =>
          ih false _ (fun other hother => hfields other (List.mem_cons_of_mem _ hother)) hm)
        fun hloose => hloose.elim
    apply Outlook.of_next hmode
    · intro hs
      refine ⟨(.endOfInput, state), ?_, rfl⟩
      rw [readFields, nextOf_of_blank hs]
    · intro p b rest hs hp hnext
      by_cases hb : b = byte ']'
      · subst hb
        refine outlook_closeFields hs hp fun t => ?_
        rw [readFields, nextOf_of_next (hnext t)]
        exact if_pos rfl
      · cases first with
        | true =>
          refine (hrest hmode).congr fun t => ?_
          simp only [readFields, nextOf_of_next (hnext t), if_neg hb, readFieldAndRest]
          rfl
        | false =>
          by_cases hcomma : b = byte ','
          · subst hcomma
            refine .advance_mark (readFieldAndRest field fields state) rfl hs hp ?_ ?_
            · exact hrest (.inl rfl)
            · intro t
              simp only [readFields, nextOf_of_next (hnext t), if_neg hb, readFieldAndRest]
              rfl
          · apply Outlook.refused
            intro t
            refine ⟨(.malformed, state), ?_⟩
            simp only [readFields, nextOf_of_next (hnext t), if_neg hb, if_neg hcomma]
            rfl

/-! ## Records and documents -/

/-- A record of foreseen fields is foreseen. -/
theorem foreseen_record (hfields : ∀ field ∈ fields, field.value.Foreseen) :
    (Fold.record fields).Foreseen := by
  intro state mode s hmode
  change Outlook Prod.fst (readRecord fields state) .rest mode s
  apply Outlook.of_next hmode
  · intro hs
    refine ⟨(.endOfInput, state), ?_, rfl⟩
    rw [readRecord, nextOf_of_blank hs]
  · intro p b rest hs hp hnext
    by_cases hbrace : b = byte '\x7b'
    · subst hbrace
      refine .advance_mark ((memberLoop fields).run ⟨state, [], false⟩) rfl hs hp ?_ ?_
      · exact outlook_memberLoop hfields _ (.inl rfl)
      · intro t
        rw [readRecord, nextOf_of_next (hnext t)]
        exact if_pos rfl
    · by_cases hbracket : b = byte '['
      · subst hbracket
        refine .advance_mark (readFields true fields state) rfl hs hp ?_ ?_
        · exact outlook_readFields true state hfields (.inl rfl)
        · intro t
          rw [readRecord, nextOf_of_next (hnext t)]
          exact (if_neg hbrace).trans (if_pos rfl)
      · apply Outlook.refused
        intro t
        refine ⟨(refuse b (rest ++ t), state), ?_⟩
        simp only [readRecord, nextOf_of_next (hnext t), if_neg hbrace, if_neg hbracket]

/-- What a foreseen reader has read stands, whatever follows. -/
theorem Fold.Foreseen.run_append {fold : Fold σ} (h : fold.Foreseen) {state a : σ}
    {s t rest : List UInt8} (hok : fold.run state s = .ok (a, rest)) :
    fold.run state (s ++ t) = .ok (a, rest ++ t) := by
  cases h state s (.inl rfl) with
  | @settled b p tail hs hread hmode =>
    have hnow : fold.run state s = .ok (b, tail) := by simpa using hread []
    rw [hok] at hnow
    cases hnow
    exact hread t
  | unsettled p tail hs hrest hread hloose => exact hloose.elim
  | needsMore hread =>
    rw [hok] at hread
    cases hread
  | refused hread =>
    obtain ⟨e, he⟩ := hread []
    rw [List.append_nil, hok] at he
    cases he
  | cut hread =>
    rw [hok] at hread
    cases hread

theorem Fold.document_eq_ok {fold : Fold σ} {state a : σ} :
    fold.document state s = .ok a ↔ ∃ rest, fold.run state s = .ok (a, rest) ∧ Blank rest := by
  rw [document]
  cases fold.run state s with
  | error e => simp
  | ok result =>
    obtain ⟨b, rest⟩ := result
    by_cases hrest : isAtEnd rest = true
    · simp only [hrest, if_true, Except.ok.injEq, Prod.mk.injEq]
      exact ⟨fun h => ⟨rest, ⟨h, rfl⟩, isAtEnd_iff.1 hrest⟩, fun ⟨_, ⟨h, _⟩, _⟩ => h⟩
    · have hblank : ¬ Blank rest := fun h => hrest (isAtEnd_iff.2 h)
      simp [hrest, hblank]

/-- A beginning of a document that is read is the whole of it, or it asks for more, unless it stops
in a number that needs a digit; there it is malformed. -/
theorem Fold.Foreseen.document_beginning {fold : Fold σ} (h : fold.Foreseen) {state a : σ}
    {s t : List UInt8} (hok : fold.document state (s ++ t) = .ok a) :
    (Mode.plain.after s ≠ .dangling ∧
      (fold.document state s = .ok a ∨
        ∃ e, fold.document state s = .error e ∧ e.1 = .endOfInput)) ∨
    (Mode.plain.after s = .dangling ∧
      ∃ e, fold.document state s = .error e ∧ e.1 = .malformed) := by
  cases h state s (.inl rfl) with
  | @settled b p rest hs hread hmode =>
    obtain ⟨tail, hwhole, htail⟩ := document_eq_ok.1 hok
    obtain ⟨rfl, rfl⟩ : b = a ∧ rest ++ t = tail := by simpa [hread] using hwhole
    have hrest : Blank rest := htail.left
    refine .inl ⟨?_, .inl (document_eq_ok.2 ⟨rest, by simpa using hread [], hrest⟩)⟩
    rw [hs, Mode.after_append]
    exact (hmode.after_blank hrest).ne_dangling
  | unsettled p rest hs hrest hread hloose => exact hloose.elim
  | needsMore hread hcause hmode =>
    refine .inl ⟨hmode, .inr ⟨_, ?_, hcause⟩⟩
    rw [document, hread]
  | refused hread =>
    obtain ⟨e, he⟩ := hread t
    rw [document, he] at hok
    cases hok
  | cut hread hcause hmode =>
    refine .inr ⟨hmode, _, ?_, hcause⟩
    rw [document, hread]

end PerfRelay.Json
