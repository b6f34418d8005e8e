import PerfRelay.Proofs.Json.Ignored
import PerfRelay.Proofs.Json.Members

/-!
# Places inside records and lists

In a document there are places where the value of a field or an item of a list comes next.  What is
read at such a place decides alone what becomes of the document: if it is read alike from two rows
of bytes, so are the documents, and if nothing can be read there, the document is not read either.

Main results:

- Theorems `run_upToMember`, `run_upToFirst` and `run_upToItem`: what a record and a list come to is
  what is read at the place, and what comes after that.
- Theorems `leads_field` and `leads_item`: the bytes before a place lead to it.
- Theorem `Leads.trans`: places inside of places.
- Theorems `Leads.alike` and `Leads.stops`: what comes of a document with what is read at a place.
-/

namespace PerfRelay.Json

variable {σ τ : Type} {forget : σ → τ} {fields : List (Field σ)} {field : Field σ} {item : Fold σ}
  {state state' : σ} {name : String}

/-! ## The bytes before a place -/

/-- The bytes of a record up to the value of a field, with the state before them and after them. -/
inductive UpToField (fields : List (Field σ)) (name : String) (state : σ) :
    List UInt8 → σ → Prop where
  /-- An object, in which other members come first. -/
  | object {before key : List UInt8} {members : List (List UInt8)} {state' : σ}
      {seen : List String} (hbefore : Blank before)
      (hmembers : Members fields state [] members state' seen) (hname : Says name key)
      (hnew : name ∉ seen) :
      UpToField fields name state
        (before ++ byte '\x7b' :: (beforeCommas members ++ (key ++ [byte ':']))) state'
  /-- An array, in which the field comes first. -/
  | array {before : List UInt8} (hbefore : Blank before)
      (hfirst : fields.head?.map (·.name) = some name) :
      UpToField fields name state (before ++ [byte '[']) state

/-- The bytes of a list up to one of its items. -/
inductive UpToItem (item : Fold σ) (state : σ) : List UInt8 → σ → Prop where
  | list {before : List UInt8} {texts : List (List UInt8)} {state' : σ} (hbefore : Blank before)
      (hitems : Items item state texts state') :
      UpToItem item state (before ++ byte '[' :: beforeCommas texts) state'

/-! ## What is read from there -/

/-- An object is read up to the value of a field, and on from there. -/
theorem run_upToMember {before key : List UInt8} {members : List (List UInt8)}
    {seen : List String} (hfield : fields.find? (·.name = name) = some field)
    (hbefore : Blank before) (hmembers : Members fields state [] members state' seen)
    (hname : Says name key) (hnew : name ∉ seen) (s : List UInt8) :
    (Fold.record fields).run state
        (before ++ byte '\x7b' :: (beforeCommas members ++ (key ++ byte ':' :: s))) =
      (field.value.run state' s).bind fun result =>
        (memberLoop fields).run ⟨result.1, name :: seen, true⟩ result.2 := by
  have hblank : Blank [] := rfl
  have hcomma : Follows (byte ',' :: (key ++ byte ':' :: s)) := follows_cons (.inl rfl) _
  obtain ⟨tail, hnext⟩ := hmembers.next_beforeCommas hname (byte ':' :: s)
  obtain ⟨gap, hgap, hrun⟩ := run_members hmembers hblank hcomma
  rw [run_record_object hbefore, run_firstMember hnext, comma_beforeCommas]
  refine hrun.trans ?_
  have hmember := readMember_field state' hfield hnew hname true s
  cases hvalue : field.value.run state' s with
  | error stop =>
    apply Loop.run_of_error
    rw [step_nextMember hgap, hmember, hvalue]
    rfl
  | ok result =>
    rw [hvalue] at hmember
    exact run_comma hgap hmember

/-- A record that is written as an array is read up to its first field, and on from there. -/
theorem run_upToFirst {before s : List UInt8} (hbefore : Blank before) (hs : Begins s) :
    (Fold.record (field :: fields)).run state (before ++ byte '[' :: s) =
      (field.value.run state s).bind fun result =>
        readFields false fields result.1 result.2 := by
  obtain ⟨b, tail, hnext, hb⟩ := hs
  have hopen : next (before ++ byte '[' :: s) = .ok (byte '[', s) :=
    next_of_blank_append hbefore rfl s
  have hother : byte '[' ≠ byte '\x7b' := by decide
  simp only [Fold.record, readRecord, nextOf_of_next hopen, if_neg hother, if_true, readFields,
    nextOf_of_next hnext, if_neg hb]
  cases field.value.run state s <;> rfl

/-- A list is read up to one of its items, and on from there. -/
theorem run_upToItem {before s : List UInt8} {texts : List (List UInt8)} (hbefore : Blank before)
    (hitems : Items item state texts state') (hs : Begins s) :
    (Fold.list item).run state (before ++ byte '[' :: (beforeCommas texts ++ s)) =
      (item.run state' s).bind fun result => (itemLoop item).run (false, result.1) result.2 := by
  have hblank : Blank [] := rfl
  have hcomma : Follows (byte ',' :: s) := follows_cons (.inl rfl) s
  have hbegins : Begins (beforeCommas texts ++ s) := by
    cases hitems with
    | nil => exact hs
    | cons hitem _ =>
      rw [beforeCommas, List.flatMap_cons, List.append_assoc, List.append_assoc]
      exact hitem.begins _
  obtain ⟨gap, hgap, hrun⟩ := run_items hitems hblank hcomma
  rw [run_list hbefore, run_firstItem hbegins, comma_beforeCommas]
  refine hrun.trans ?_
  cases hvalue : item.run state' s with
  | error stop =>
    apply Loop.run_of_error
    rw [step_nextItem hgap, hvalue]
    rfl
  | ok result =>
    apply Loop.run_of_again
    rw [step_nextItem hgap, hvalue]
    rfl

/-! ## Leading to a place -/

/-- Some bytes lead an outer reader to a place where an inner one goes on.  What comes after that
place is read with the result of the inner one, and ignores what is forgotten of its state. -/
structure Leads (forget : σ → τ) (outer : Fold σ) (state : σ) (bytes : List UInt8)
    (inner : Fold σ) (state' : σ) : Prop where
  begins : ∀ s, Begins (bytes ++ s)
  goesOn : ∃ more : σ × List UInt8 → Reading (Stop × σ) σ,
    (∀ a b rest, Agree forget a b →
      Alike forget (Agree forget) (more (a, rest)) (more (b, rest))) ∧
    ∀ s, Begins s → outer.run state (bytes ++ s) = (inner.run state' s).bind more

namespace Leads

variable {outer middle inner : Fold σ} {state'' : σ} {p q s t : List UInt8}

/-- What the inner reader reads alike from there, the outer one reads alike. -/
theorem alike (h : Leads forget outer state p inner state') (hs : Begins s) (ht : Begins t)
    (hinner : Alike forget (Agree forget) (inner.run state' s) (inner.run state' t)) :
    Alike forget (Agree forget) (outer.run state (p ++ s)) (outer.run state (p ++ t)) := by
  obtain ⟨more, hmore, hrun⟩ := h.goesOn
  rw [hrun s hs, hrun t ht]
  exact hinner.bind hmore

/-- Where the inner reader stops, the outer one stops. -/
theorem stops (h : Leads forget outer state p inner state') (hs : Begins s) {stop : Stop × σ}
    (hinner : inner.run state' s = .error stop) : outer.run state (p ++ s) = .error stop := by
  obtain ⟨more, -, hrun⟩ := h.goesOn
  rw [hrun s hs, hinner]
  rfl

/-- The bytes before a place inside of a place lead to it. -/
theorem trans (h : Leads forget outer state p middle state')
    (h' : Leads forget middle state' q inner state'') :
    Leads forget outer state (p ++ q) inner state'' := by
  obtain ⟨after, hafter, hrun⟩ := h.goesOn
  obtain ⟨within, hwithin, hrun'⟩ := h'.goesOn
  constructor
  · intro s
    rw [List.append_assoc]
    exact h.begins _
  · refine ⟨fun result => (within result).bind after, fun a b rest hab => ?_, fun s hs => ?_⟩
    · exact (hwithin a b rest hab).bind hafter
    · rw [List.append_assoc, hrun _ (h'.begins s), hrun' s hs]
      cases inner.run state'' s <;> rfl

end Leads

/-- The bytes of a record up to the value of a field lead to that value. -/
theorem leads_field {bytes : List UInt8} (hfields : ∀ other ∈ fields, other.value.Ignores forget)
    (hfield : fields.find? (·.name = name) = some field)
    (h : UpToField fields name state bytes state') :
    Leads forget (Fold.record fields) state bytes field.value state' := by
  cases h with
  | @object before key members _ seen hbefore hmembers hname hnew =>
    constructor
    · exact begins_append hbefore rfl (by decide)
    · refine ⟨fun result => (memberLoop fields).run ⟨result.1, name :: seen, true⟩ result.2,
        fun a b rest hab => ?_, fun s _ => ?_⟩
      · have hstart : SameProgress forget ⟨a, name :: seen, true⟩ ⟨b, name :: seen, true⟩ :=
          ⟨hab, rfl, rfl⟩
        exact alike_run (alike_memberStep hfields) hstart rest
      · simp only [List.append_assoc, List.cons_append, List.nil_append]
        exact run_upToMember hfield hbefore hmembers hname hnew s
  | @array before hbefore hfirst =>
    rcases fields with _ | ⟨first, more⟩
    · cases hfirst
    · have hname : first.name = name := Option.some.inj hfirst
      have hself : (first :: more).find? (·.name = name) = some first :=
        List.find?_cons_of_pos (decide_eq_true hname)
      obtain rfl : first = field := Option.some.inj (hself.symm.trans hfield)
      constructor
      · exact begins_append hbefore rfl (by decide)
      · refine ⟨fun result => readFields false more result.1 result.2, fun a b rest hab => ?_,
          fun s hs => ?_⟩
        · exact alike_readFields
            (fun other hmem => hfields other (List.mem_cons_of_mem _ hmem)) false hab rest
        · rw [List.append_assoc, List.singleton_append]
          exact run_upToFirst hbefore hs

/-- The bytes of a list up to one of its items lead to that item. -/
theorem leads_item {bytes : List UInt8} (hitem : item.Ignores forget)
    (h : UpToItem item state bytes state') :
    Leads forget (Fold.list item) state bytes item state' := by
  cases h with
  | list hbefore hitems =>
    constructor
    · exact begins_append hbefore rfl (by decide)
    · refine ⟨fun result => (itemLoop item).run (false, result.1) result.2,
        fun a b rest hab => ?_, fun s hs => ?_⟩
      · have hstart : SameItems forget (false, a) (false, b) := ⟨rfl, hab⟩
        exact alike_run (alike_itemStep hitem) hstart rest
      · rw [List.append_assoc, List.cons_append]
        exact run_upToItem hbefore hitems hs

end PerfRelay.Json
