import Mathlib.Tactic.SplitIfs
import PerfRelay.Json.Record

/-!
# What readers of records ignore

A reader with a state may carry something along in it that it never looks at, such as notes about
what it has met.  If that is so for the fields of a record and for the items of a list, it is so for
the record and the list: from states that agree in the rest they read the same bytes, and stop for
the same reason.

Main results:

- Theorem `alike_run`: a loop ignores what its steps ignore.
- Theorems `ignores_list` and `ignores_record`: lists and records ignore what their parts ignore.
-/

namespace PerfRelay.Json

variable {σ τ ρ ρ' : Type} {forget : σ → τ} {same : ρ → ρ → Prop} {a b : σ}

/-- Two states that agree in what is not forgotten. -/
def Agree (forget : σ → τ) (a b : σ) : Prop := forget a = forget b

/-- Two results after the same bytes, or for the same reason, whose states agree. -/
inductive Alike (forget : σ → τ) (same : ρ → ρ → Prop) :
    Reading (Stop × σ) ρ → Reading (Stop × σ) ρ → Prop where
  | ok {x y : ρ} (h : same x y) (rest : List UInt8) :
      Alike forget same (.ok (x, rest)) (.ok (y, rest))
  | error {a b : σ} (h : Agree forget a b) (stop : Stop) :
      Alike forget same (.error (stop, a)) (.error (stop, b))

namespace Alike

variable {first second : Reading (Stop × σ) ρ}

/-- Both results are values, or both are reasons. -/
theorem outcomes (h : Alike forget same first second) :
    (∃ x y rest, same x y ∧ first = .ok (x, rest) ∧ second = .ok (y, rest)) ∨
      ∃ a b stop, Agree forget a b ∧ first = .error (stop, a) ∧ second = .error (stop, b) := by
  cases h with
  | ok h rest => exact .inl ⟨_, _, rest, h, rfl, rfl⟩
  | error h stop => exact .inr ⟨_, _, stop, h, rfl, rfl⟩

theorem map {same' : ρ' → ρ' → Prop} (h : Alike forget same first second) {f : ρ → ρ'}
    (hf : ∀ x y, same x y → same' (f x) (f y)) :
    Alike forget same' (first.map fun result => (f result.1, result.2))
      (second.map fun result => (f result.1, result.2)) := by
  cases h with
  | ok h rest => exact .ok (hf _ _ h) rest
  | error h stop => exact .error h stop

theorem bind {same' : ρ' → ρ' → Prop} (h : Alike forget same first second)
    {f : ρ × List UInt8 → Reading (Stop × σ) ρ'}
    (hf : ∀ x y rest, same x y → Alike forget same' (f (x, rest)) (f (y, rest))) :
    Alike forget same' (first.bind f) (second.bind f) := by
  cases h with
  | ok h rest => exact hf _ _ rest h
  | error h stop => exact .error h stop

end Alike

/-- A reader ignores what is forgotten of its state. -/
def Fold.Ignores (forget : σ → τ) (fold : Fold σ) : Prop :=
  ∀ a b s, Agree forget a b → Alike forget (Agree forget) (fold.run a s) (fold.run b s)

theorem ignores_ofReader {α : Type} {read : List UInt8 → Reading Stop α} {enter : α → σ → σ}
    (hread : ∀ {s rest : List UInt8} {a : α}, read s = .ok (a, rest) → rest.length < s.length)
    (h : ∀ v a b, Agree forget a b → Agree forget (enter v a) (enter v b)) :
    (Fold.ofReader read enter hread).Ignores forget := by
  intro a b s hab
  simp only [Fold.ofReader]
  cases read s with
  | error stop => exact .error hab stop
  | ok result => exact .ok (h result.1 a b hab) result.2

/-! ## Loops -/

/-- Two turns that go on in the same way. -/
inductive SameTurn (again : ρ → ρ → Prop) (finish : σ → σ → Prop) : Turn ρ σ → Turn ρ σ → Prop where
  | again {p q : ρ} (h : again p q) : SameTurn again finish (.again p) (.again q)
  | finish {a b : σ} (h : finish a b) : SameTurn again finish (.finish a) (.finish b)

/-- A loop ignores what its steps ignore.  The induction is along the steps. -/
theorem alike_run {loop : Loop (Stop × σ) ρ σ}
    (hstep : ∀ p q s, same p q →
      Alike forget (SameTurn same (Agree forget)) (loop.step p s) (loop.step q s))
    {p q : ρ} (h : same p q) (s : List UInt8) :
    Alike forget (Agree forget) (loop.run p s) (loop.run q s) := by
  induction p, s using loop.induction generalizing q with
  | hstep p s ih =>
    obtain ⟨x, y, rest, hturn, hp, hq⟩ | ⟨a, b, stop, hab, hp, hq⟩ := (hstep p q s h).outcomes
    · cases hturn with
      | again h =>
        rw [Loop.run_of_again hp, Loop.run_of_again hq]
        exact ih _ _ hp h
      | finish h =>
        rw [Loop.run_of_finish hp, Loop.run_of_finish hq]
        exact .ok h rest
    · rw [Loop.run_of_error hp, Loop.run_of_error hq]
      exact .error hab stop

/-- What comes next does not depend on the state. -/
theorem nextOf_outcomes (a b : σ) (s : List UInt8) :
    (∃ byte rest, nextOf a s = .ok (byte, rest) ∧ nextOf b s = .ok (byte, rest)) ∨
      ∃ stop, nextOf a s = .error (stop, a) ∧ nextOf b s = .error (stop, b) := by
  unfold nextOf
  cases next s with
  | error stop => exact .inr ⟨stop, rfl, rfl⟩
  | ok result => exact .inl ⟨result.1, result.2, rfl, rfl⟩

/-! ## Lists -/

/-- Readings of a list that have come as far, with states that agree. -/
structure SameItems (forget : σ → τ) (p q : Bool × σ) : Prop where
  first : p.1 = q.1
  state : Agree forget p.2 q.2

theorem alike_itemStep {item : Fold σ} (hitem : item.Ignores forget) (p q : Bool × σ)
    (s : List UInt8) (h : SameItems forget p q) :
    Alike forget (SameTurn (SameItems forget) (Agree forget)) (itemStep item p s)
      (itemStep item q s) := by
  obtain ⟨first, a⟩ := p
  obtain ⟨_, b⟩ := q
  obtain ⟨rfl, hab⟩ := h
  have hturn : ∀ s, Alike forget (SameTurn (SameItems forget) (Agree forget))
      ((item.run a s).map fun result => (Turn.again (false, result.1), result.2))
      ((item.run b s).map fun result => (Turn.again (false, result.1), result.2)) :=
    fun s => (hitem a b s hab).map (f := fun state => Turn.again (false, state))
      fun _ _ h => .again ⟨rfl, h⟩
  obtain ⟨byte, rest, ha, hb⟩ | ⟨stop, ha, hb⟩ := nextOf_outcomes a b s
  · simp only [itemStep, ha, hb]
    split_ifs
    · exact .ok (.finish hab) rest
    · exact hturn s
    · exact hturn rest
    · exact .error hab _
  · simp only [itemStep, ha, hb]
    exact .error hab stop

theorem ignores_list {item : Fold σ} (hitem : item.Ignores forget) :
    (Fold.list item).Ignores forget := by
  intro a b s hab
  obtain ⟨byte, rest, ha, hb⟩ | ⟨stop, ha, hb⟩ := nextOf_outcomes a b s
  · simp only [Fold.list, readList, ha, hb]
    split_ifs
    · have hstart : SameItems forget (true, a) (true, b) := ⟨rfl, hab⟩
      exact alike_run (alike_itemStep hitem) hstart rest
    · exact .error hab _
  · simp only [Fold.list, readList, ha, hb]
    exact .error hab stop

/-! ## Records -/

/-- Readings of an object that have come as far, with states that agree. -/
structure SameProgress (forget : σ → τ) (p q : Progress σ) : Prop where
  state : Agree forget p.state q.state
  seen : p.seen = q.seen
  started : p.started = q.started

section

variable {fields : List (Field σ)} (hfields : ∀ field ∈ fields, field.value.Ignores forget)

include hfields

theorem alike_readMemberValue {p q : Progress σ} (h : SameProgress forget p q) (name : String)
    (s : List UInt8) :
    Alike forget (SameProgress forget) (readMemberValue fields p name s)
      (readMemberValue fields q name s) := by
  obtain ⟨a, seen, started⟩ := p
  obtain ⟨b, _, _⟩ := q
  obtain ⟨hab, rfl, rfl⟩ := h
  unfold readMemberValue
  cases hfind : fields.find? (·.name = name) with
  | none =>
    cases expect (byte ':') s with
    | error stop => exact .error hab stop
    | ok result =>
      dsimp only
      cases skipValue result.2 with
      | error stop => exact .error hab stop
      | ok result => exact .ok ⟨hab, rfl, rfl⟩ result.2
  | some field =>
    dsimp only
    split_ifs
    · exact .error hab _
    · cases expect (byte ':') s with
      | error stop => exact .error hab stop
      | ok result =>
        have hvalue := hfields field (List.mem_of_find?_eq_some hfind) a b result.2 hab
        obtain ⟨x, y, rest, h, hx, hy⟩ | ⟨x, y, stop, h, hx, hy⟩ := hvalue.outcomes
        · simp only [hx, hy]
          exact .ok ⟨h, rfl, rfl⟩ rest
        · simp only [hx, hy]
          exact .error h stop

theorem alike_readMember {p q : Progress σ} (h : SameProgress forget p q) (s : List UInt8) :
    Alike forget (SameProgress forget) (readMember fields p s) (readMember fields q s) := by
  unfold readMember
  cases readName s with
  | error stop => exact .error h.state stop
  | ok result => exact alike_readMemberValue hfields h result.1 result.2

theorem alike_memberStep (p q : Progress σ) (s : List UInt8) (h : SameProgress forget p q) :
    Alike forget (SameTurn (SameProgress forget) (Agree forget)) (memberStep fields p s)
      (memberStep fields q s) := by
  have hturn : ∀ s, Alike forget (SameTurn (SameProgress forget) (Agree forget))
      ((readMember fields p s).map fun result => (Turn.again result.1, result.2))
      ((readMember fields q s).map fun result => (Turn.again result.1, result.2)) :=
    fun s => (alike_readMember hfields h s).map (f := Turn.again) fun _ _ h => .again h
  obtain ⟨byte, rest, ha, hb⟩ | ⟨stop, ha, hb⟩ := nextOf_outcomes p.state q.state s
  · simp only [memberStep, ha, hb, ← h.started]
    split_ifs
    · exact .ok (.finish h.state) rest
    · exact hturn rest
    · exact .error h.state _
    · exact hturn s
  · simp only [memberStep, ha, hb]
    exact .error h.state stop

/-- The fields of a record that is written as an array.  The induction is on the fields. -/
theorem alike_readFields (first : Bool) (hab : Agree forget a b) (s : List UInt8) :
    Alike forget (Agree forget) (readFields first fields a s) (readFields first fields b s) := by
  induction fields generalizing first a b s with
  | nil =>
    obtain ⟨byte, rest, ha, hb⟩ | ⟨stop, ha, hb⟩ := nextOf_outcomes a b s
    · simp only [readFields, ha, hb]
      split_ifs
      · exact .ok hab rest
      · exact .error hab _
    · simp only [readFields, ha, hb]
      exact .error hab stop
  | cons field fields ih =>
    have htail : ∀ other ∈ fields, other.value.Ignores forget :=
      fun other hmem => hfields other (List.mem_cons_of_mem _ hmem)
    obtain ⟨byte, rest, ha, hb⟩ | ⟨stop, ha, hb⟩ := nextOf_outcomes a b s
    · simp only [readFields, ha, hb]
      split_ifs
      · exact .ok hab rest
      · have hvalue := hfields field List.mem_cons_self a b s hab
        obtain ⟨x, y, rest, h, hx, hy⟩ | ⟨x, y, stop, h, hx, hy⟩ := hvalue.outcomes
        · simp only [hx, hy]
          exact ih htail false h rest
        · simp only [hx, hy]
          exact .error h stop
      · have hvalue := hfields field List.mem_cons_self a b rest hab
        obtain ⟨x, y, rest, h, hx, hy⟩ | ⟨x, y, stop, h, hx, hy⟩ := hvalue.outcomes
        · simp only [hx, hy]
          exact ih htail false h rest
        · simp only [hx, hy]
          exact .error h stop
      · exact .error hab _
    · simp only [readFields, ha, hb]
      exact .error hab stop

theorem ignores_record : (Fold.record fields).Ignores forget := by
  intro a b s hab
  obtain ⟨byte, rest, ha, hb⟩ | ⟨stop, ha, hb⟩ := nextOf_outcomes a b s
  · simp only [Fold.record, readRecord, ha, hb]
    split_ifs
    · have hstart : SameProgress forget ⟨a, [], false⟩ ⟨b, [], false⟩ := ⟨hab, rfl, rfl⟩
      exact alike_run (alike_memberStep hfields) hstart rest
    · exact alike_readFields hfields true hab rest
    · exact .error hab _
  · simp only [Fold.record, readRecord, ha, hb]
    exact .error hab stop

end

end PerfRelay.Json
