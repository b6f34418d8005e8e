import PerfRelay.Proofs.Json.Elements
import PerfRelay.Proofs.Json.Records

/-!
# The members of records and the items of lists

The members of a record are read one after the other: a field brings its value into the state, and
a member that nobody knows is passed over.  The items of a list are read in the same way.  In both
the first part is read as if it came after a comma, so what is said of parts after commas holds for
all of them.

Main results:

- Theorem `run_members`: the members of a record, read one after the other.
- Theorem `run_items`: the items of a list, read one after the other.
-/

namespace PerfRelay.Json

variable {σ : Type} {fields : List (Field σ)} {field : Field σ} {item : Fold σ}
  {state state' : σ} {seen seen' : List String} {name : String} {gap s rest : List UInt8}

/-- Some parts with a comma behind each of them. -/
def beforeCommas (parts : List (List UInt8)) : List UInt8 :=
  parts.flatMap fun part => part ++ [byte ',']

/-- A comma behind each part is a comma before each part and before what follows. -/
theorem comma_beforeCommas (parts : List (List UInt8)) (s : List UInt8) :
    byte ',' :: (beforeCommas parts ++ s) = afterCommas parts ++ byte ',' :: s := by
  induction parts with
  | nil => rfl
  | cons part parts ih =>
    rw [afterCommas_cons, ← ih, beforeCommas, List.flatMap_cons, List.append_assoc,
      List.append_assoc, List.singleton_append]
    rfl

/-- The bytes are a value that is brought into a state.  White space behind it may be left. -/
structure Fold.Takes (fold : Fold σ) (state : σ) (s : List UInt8) (state' : σ) : Prop where
  begins : ∀ rest, Begins (s ++ rest)
  reads : ∀ rest, Follows rest →
    ∃ gap, Blank gap ∧ fold.run state (s ++ rest) = .ok (state', gap ++ rest)

/-! ## Members -/

/-- Some members of a record, with the state and the fields that have come before them and after
them. -/
inductive Members (fields : List (Field σ)) :
    σ → List String → List (List UInt8) → σ → List String → Prop where
  | nil {state : σ} {seen : List String} : Members fields state seen [] state seen
  /-- A field that has not come before. -/
  | known {state mid state' : σ} {seen seen' : List String} {field : Field σ} {name : String}
      {key value : List UInt8} {members : List (List UInt8)}
      (hfield : fields.find? (·.name = name) = some field) (hnew : name ∉ seen)
      (hname : Says name key) (hvalue : field.value.Takes state value mid)
      (h : Members fields mid (name :: seen) members state' seen') :
      Members fields state seen (member (key, value) :: members) state' seen'
  /-- A member that is no field, with any value. -/
  | unknown {state state' : σ} {seen seen' : List String} {name : String}
      {key value : List UInt8} {members : List (List UInt8)}
      (hnone : fields.find? (·.name = name) = none) (hname : Says name key)
      (hvalue : Element value) (h : Members fields state seen members state' seen') :
      Members fields state seen (member (key, value) :: members) state' seen'

/-- A member begins with the quote of its name. -/
theorem Members.next_eq {text : List UInt8} {members : List (List UInt8)}
    (h : Members fields state seen (text :: members) state' seen') (s : List UInt8) :
    ∃ tail, next (text ++ s) = .ok (byte '"', tail) := by
  cases h with
  | known _ _ hname _ _ =>
    rw [member, List.append_assoc]
    exact hname.next_eq _
  | unknown _ hname _ _ =>
    rw [member, List.append_assoc]
    exact hname.next_eq _

theorem Members.next_beforeCommas {members : List (List UInt8)}
    (h : Members fields state seen members state' seen') {key : List UInt8} (hname : Says name key)
    (s : List UInt8) :
    ∃ tail, next (beforeCommas members ++ (key ++ s)) = .ok (byte '"', tail) := by
  rcases members with _ | ⟨first, more⟩
  · exact hname.next_eq s
  · rw [beforeCommas, List.flatMap_cons, List.append_assoc, List.append_assoc]
    exact h.next_eq _

/-- A field is read with its name and the colon. -/
theorem readMember_field (state : σ) (hfield : fields.find? (·.name = name) = some field)
    (hnew : name ∉ seen) {key : List UInt8} (hname : Says name key) (started : Bool)
    (s : List UInt8) :
    readMember fields ⟨state, seen, started⟩ (key ++ byte ':' :: s) =
      (field.value.run state s).map fun result => (⟨result.1, name :: seen, true⟩, result.2) := by
  obtain ⟨gap, hgap, hkey⟩ := readName_of_says hname (byte ':' :: s)
  have hcolon : expect (byte ':') (gap ++ byte ':' :: s) = .ok ((), s) :=
    expect_of_next (next_of_blank_append hgap rfl s)
  simp only [readMember, hkey, readMemberValue, hfield, if_neg hnew, hcolon]
  cases field.value.run state s <;> rfl

/-- A member that is no field is passed over. -/
theorem readMember_unknown (state : σ) (seen : List String)
    (hnone : fields.find? (·.name = name) = none) {key value : List UInt8} (hname : Says name key)
    (hvalue : Element value) (hrest : Follows rest) :
    ∃ gap, Blank gap ∧ readMember fields ⟨state, seen, true⟩ (member (key, value) ++ rest) =
      .ok (⟨state, seen, true⟩, gap ++ rest) := by
  obtain ⟨gap, hgap, hkey⟩ := readName_of_says hname (byte ':' :: (value ++ rest))
  obtain ⟨gap', hgap', hskip⟩ := skipValue_of_element hvalue hrest
  have hcolon : expect (byte ':') (gap ++ byte ':' :: (value ++ rest)) = .ok ((), value ++ rest) :=
    expect_of_next (next_of_blank_append hgap rfl _)
  refine ⟨gap', hgap', ?_⟩
  simp only [member, List.append_assoc, List.cons_append, readMember, hkey, readMemberValue, hnone,
    hcolon, hskip]

/-- A field is refused at its name if it has come before. -/
theorem readMember_again (hfield : fields.find? (·.name = name) = some field)
    (hseen : name ∈ seen) {key : List UInt8} (hname : Says name key) (rest : List UInt8) :
    readMember fields ⟨state, seen, true⟩ (key ++ rest) = .error (.mismatch, state) := by
  obtain ⟨gap, -, hkey⟩ := readName_of_says hname rest
  simp only [readMember, hkey, readMemberValue, hfield, if_pos hseen]

/-- A member comes after its comma. -/
theorem step_nextMember (hgap : Blank gap) (s : List UInt8) :
    (memberLoop fields).step ⟨state, seen, true⟩ (gap ++ byte ',' :: s) =
      (readMember fields ⟨state, seen, true⟩ s).map fun result => (.again result.1, result.2) := by
  have hother : byte ',' ≠ byte '\x7d' := by decide
  have hnext : next (gap ++ byte ',' :: s) = .ok (byte ',', s) := next_of_blank_append hgap rfl s
  simp only [memberLoop, memberStep, nextOf_of_next hnext, if_neg hother, if_true]

theorem run_comma (hgap : Blank gap) {progress : Progress σ}
    (hread : readMember fields ⟨state, seen, true⟩ s = .ok (progress, rest)) :
    (memberLoop fields).run ⟨state, seen, true⟩ (gap ++ byte ',' :: s) =
      (memberLoop fields).run progress rest := by
  apply Loop.run_of_again
  rw [step_nextMember hgap, hread]
  rfl

/-- The first member is read as if it came after a comma. -/
theorem run_firstMember {tail : List UInt8} (hnext : next s = .ok (byte '"', tail)) :
    (memberLoop fields).run ⟨state, seen, false⟩ s =
      (memberLoop fields).run ⟨state, seen, true⟩ (byte ',' :: s) := by
  have hquote : byte '"' ≠ byte '\x7d' := by decide
  have hblank : Blank [] := rfl
  have hstep : (memberLoop fields).step ⟨state, seen, false⟩ s =
      (memberLoop fields).step ⟨state, seen, true⟩ ([] ++ byte ',' :: s) := by
    rw [step_nextMember hblank]
    simp only [memberLoop, memberStep, nextOf_of_next hnext, if_neg hquote, Bool.false_eq_true,
      if_false]
    rfl
  rw [Loop.run_eq, hstep, ← Loop.run_eq, List.nil_append]

theorem run_joined {members : List (List UInt8)}
    (h : Members fields state seen members state' seen') (hsome : members ≠ [])
    (rest : List UInt8) :
    (memberLoop fields).run ⟨state, seen, false⟩ (joined members ++ rest) =
      (memberLoop fields).run ⟨state, seen, true⟩ (afterCommas members ++ rest) := by
  rcases members with _ | ⟨first, more⟩
  · exact absurd rfl hsome
  obtain ⟨tail, hnext⟩ := h.next_eq (afterCommas more ++ rest)
  rw [joined, afterCommas_cons, List.append_assoc]
  exact run_firstMember hnext

/-- An object is read up to its brace. -/
theorem run_closeObject (hgap : Blank gap) (started : Bool) (rest : List UInt8) :
    (memberLoop fields).run ⟨state, seen, started⟩ (gap ++ byte '\x7d' :: rest) =
      .ok (state, rest) := by
  apply Loop.run_of_finish
  have hnext : next (gap ++ byte '\x7d' :: rest) = .ok (byte '\x7d', rest) :=
    next_of_blank_append hgap rfl rest
  simp only [memberLoop, memberStep, nextOf_of_next hnext, if_true]

/-- Some members are read one after the other.  The induction is on the members, each with its
comma. -/
theorem run_members {members : List (List UInt8)}
    (h : Members fields state seen members state' seen') (hgap : Blank gap)
    (hrest : Follows rest) :
    ∃ gap', Blank gap' ∧ (memberLoop fields).run ⟨state, seen, true⟩
        (gap ++ (afterCommas members ++ rest)) =
      (memberLoop fields).run ⟨state', seen', true⟩ (gap' ++ rest) := by
  induction h generalizing gap with
  | nil => exact ⟨gap, hgap, rfl⟩
  | @known state mid state' seen seen' field name key value members hfield hnew hname hvalue _ ih =>
    obtain ⟨gap', hgap', hread⟩ := hvalue.reads _ (hrest.after_parts members)
    obtain ⟨gap'', hgap'', hrun⟩ := ih hgap'
    have hmember := readMember_field state hfield hnew hname true
      (value ++ (afterCommas members ++ rest))
    rw [hread] at hmember
    refine ⟨gap'', hgap'', ?_⟩
    rw [afterCommas_cons, member, List.append_assoc, List.cons_append, run_comma hgap hmember, hrun]
  | @unknown state state' seen seen' name key value members hnone hname hvalue _ ih =>
    obtain ⟨gap', hgap', hread⟩ := readMember_unknown state seen hnone hname hvalue
      (hrest.after_parts members)
    obtain ⟨gap'', hgap'', hrun⟩ := ih hgap'
    refine ⟨gap'', hgap'', ?_⟩
    rw [afterCommas_cons, run_comma hgap hread, hrun]

/-- An object is read member by member. -/
theorem run_record_object {before : List UInt8} (hbefore : Blank before) (state : σ)
    (s : List UInt8) :
    (Fold.record fields).run state (before ++ byte '\x7b' :: s) =
      (memberLoop fields).run ⟨state, [], false⟩ s := by
  have hnext : next (before ++ byte '\x7b' :: s) = .ok (byte '\x7b', s) :=
    next_of_blank_append hbefore rfl s
  simp only [Fold.record, readRecord, nextOf_of_next hnext, if_true]

/-- A record is taken from an object with its members. -/
theorem takes_record {before after : List UInt8} {members : List (List UInt8)}
    (hbefore : Blank before) (h : Members fields state [] members state' seen')
    (hafter : Blank after) :
    (Fold.record fields).Takes state
      (before ++ byte '\x7b' :: (joined members ++ byte '\x7d' :: after)) state' := by
  constructor
  · exact begins_append hbefore rfl (by decide)
  · intro rest _
    have hblank : Blank [] := rfl
    have hclose : Follows (byte '\x7d' :: (after ++ rest)) := follows_cons (.inr (.inr rfl)) _
    refine ⟨after, hafter, ?_⟩
    simp only [List.append_assoc, List.cons_append]
    rw [run_record_object hbefore]
    by_cases hsome : members = []
    · subst hsome
      cases h
      exact run_closeObject hblank false _
    · obtain ⟨gap, hgap, hrun⟩ := run_members h hblank hclose
      rw [List.nil_append] at hrun
      rw [run_joined h hsome, hrun]
      exact run_closeObject hgap true _

/-! ## Items -/

/-- Some items of a list, with the state before them and after them. -/
inductive Items (item : Fold σ) : σ → List (List UInt8) → σ → Prop where
  | nil {state : σ} : Items item state [] state
  | cons {state mid state' : σ} {text : List UInt8} {texts : List (List UInt8)}
      (hitem : item.Takes state text mid) (h : Items item mid texts state') :
      Items item state (text :: texts) state'

/-- An item comes after its comma. -/
theorem step_nextItem (hgap : Blank gap) (s : List UInt8) :
    (itemLoop item).step (false, state) (gap ++ byte ',' :: s) =
      (item.run state s).map fun result => (.again (false, result.1), result.2) := by
  have hother : byte ',' ≠ byte ']' := by decide
  have hnext : next (gap ++ byte ',' :: s) = .ok (byte ',', s) := next_of_blank_append hgap rfl s
  simp only [itemLoop, itemStep, nextOf_of_next hnext, if_neg hother, Bool.false_eq_true, if_false,
    if_true]

/-- The first item is read as if it came after a comma. -/
theorem run_firstItem (h : Begins s) :
    (itemLoop item).run (true, state) s = (itemLoop item).run (false, state) (byte ',' :: s) := by
  obtain ⟨b, tail, hnext, hb⟩ := h
  have hblank : Blank [] := rfl
  have hstep : (itemLoop item).step (true, state) s =
      (itemLoop item).step (false, state) ([] ++ byte ',' :: s) := by
    rw [step_nextItem hblank]
    simp only [itemLoop, itemStep, nextOf_of_next hnext, if_neg hb, if_true]
  rw [Loop.run_eq, hstep, ← Loop.run_eq, List.nil_append]

/-- Some items are read one after the other.  The induction is on the items, each with its
comma. -/
theorem run_items {texts : List (List UInt8)} (h : Items item state texts state')
    (hgap : Blank gap) (hrest : Follows rest) :
    ∃ gap', Blank gap' ∧ (itemLoop item).run (false, state) (gap ++ (afterCommas texts ++ rest)) =
      (itemLoop item).run (false, state') (gap' ++ rest) := by
  induction h generalizing gap with
  | nil => exact ⟨gap, hgap, rfl⟩
  | @cons state mid state' text texts hitem _ ih =>
    obtain ⟨gap', hgap', hread⟩ := hitem.reads _ (hrest.after_parts texts)
    obtain ⟨gap'', hgap'', hrun⟩ := ih hgap'
    have hstep : (itemLoop item).step (false, state)
        (gap ++ byte ',' :: (text ++ (afterCommas texts ++ rest))) =
          .ok (.again (false, mid), gap' ++ (afterCommas texts ++ rest)) := by
      rw [step_nextItem hgap, hread]
      rfl
    refine ⟨gap'', hgap'', ?_⟩
    rw [afterCommas_cons, Loop.run_of_again hstep, hrun]

/-- A list is read item by item. -/
theorem run_list {before : List UInt8} (hbefore : Blank before) (state : σ) (s : List UInt8) :
    (Fold.list item).run state (before ++ byte '[' :: s) =
      (itemLoop item).run (true, state) s := by
  have hnext : next (before ++ byte '[' :: s) = .ok (byte '[', s) :=
    next_of_blank_append hbefore rfl s
  simp only [Fold.list, readList, nextOf_of_next hnext, if_true]

end PerfRelay.Json
