import PerfRelay.Proofs.Json.Kept

/-!
# Values without binary64 numbers

Numbers that are whole and fit a word are kept exactly, so nothing is lost of a value that has no
other ones.  The values of this kind are described here by their form, and every value that is read
from a JSON text is of this form unless there is a binary64 number in it.

Main results:

- Theorem `Builds.of_read`: what passes from the parts of a value to the value holds of everything
  that is read.
- Theorem `isExact_of_parseWithin`: a value that is read is exact if it has no binary64 numbers.
-/

namespace PerfRelay.Json

/-! ## Exact values -/

namespace Value

/-- A value without binary64 numbers: its numbers are whole numbers that fit a word, with or without
a sign, and its objects have their members in the order of their names, each name once. -/
inductive IsExact : Value → Prop where
  | null : IsExact .null
  | bool (b : Bool) : IsExact (.bool b)
  | int {n : Int} (hlow : -(Nat.pow 2 63 : Int) ≤ n) (hhigh : n < (Nat.pow 2 64 : Int)) :
      IsExact (.int n)
  | string (text : String) : IsExact (.string text)
  | array {items : List Value} (hitems : ∀ item ∈ items, IsExact item) : IsExact (.array items)
  | object {members : List (String × Value)} (hsorted : members.Pairwise (·.1 < ·.1))
      (hmembers : ∀ entry ∈ members, IsExact entry.2) : IsExact (.object members)

/-- There is a binary64 number in a value. -/
inductive HasFloat : Value → Prop where
  | float (x : Binary64) : HasFloat (.float x)
  | array {items : List Value} {item : Value} (hitem : item ∈ items) (h : HasFloat item) :
      HasFloat (.array items)
  | object {members : List (String × Value)} {entry : String × Value} (hentry : entry ∈ members)
      (h : HasFloat entry.2) : HasFloat (.object members)

theorem IsExact.not_hasFloat {v : Value} (h : v.IsExact) : ¬ v.HasFloat := by
  intro hfloat
  induction hfloat with
  | float => cases h
  | array hitem _ ih =>
    cases h with
    | array hitems => exact ih (hitems _ hitem)
  | object hentry _ ih =>
    cases h with
    | object _ hmembers => exact ih (hmembers _ hentry)

end Value

/-! ## What holds of everything that is read -/

variable {α κ : Type} {P : α → Prop} {enclosing : Nat} {s rest : List UInt8}

/-- What is there of an open array or object has a property. -/
def Frame.Holds (P : α → Prop) : Frame α κ → Prop
  | .array items => ∀ item ∈ items, P item
  | .object members _ => ∀ entry ∈ members, P entry.2

/-- All values that have been read have a property. -/
def Position.Holds (P : α → Prop) : Position α κ → Prop
  | .before stack => ∀ frame ∈ stack, frame.Holds P
  | .after stack v => P v ∧ ∀ frame ∈ stack, frame.Holds P

/-- So have those that the next step leaves. -/
def TurnHolds (P : α → Prop) : Turn (Position α κ) α → Prop
  | .again position => position.Holds P
  | .finish v => P v

namespace Treatment

variable {t : Treatment α κ} {stack : List (Frame α κ)} {position : Position α κ}
  {turn : Turn (Position α κ) α} {v : α}

/-- A value has a property if it has no parts, or if its parts have the property. -/
structure Builds (t : Treatment α κ) (P : α → Prop) : Prop where
  scalar : ∀ {b : UInt8} {s rest : List UInt8} {v : α}, t.scalar b s = .ok (v, rest) → P v
  array : ∀ {items : List α}, (∀ item ∈ items, P item) → P (t.array items)
  object : ∀ {members : List (κ × α)}, (∀ entry ∈ members, P entry.2) → P (t.object members)

namespace Builds

theorem openArray (h : t.Builds P) (hstack : ∀ frame ∈ stack, frame.Holds P)
    (hopen : t.openArray stack s = .ok (turn, rest)) : TurnHolds P turn := by
  unfold Treatment.openArray at hopen
  split at hopen
  · cases hopen
    exact ⟨h.array (List.forall_mem_nil _), hstack⟩
  · cases hopen
    exact List.forall_mem_cons.2 ⟨List.forall_mem_nil _, hstack⟩

theorem openObject (h : t.Builds P) (hstack : ∀ frame ∈ stack, frame.Holds P)
    (hopen : t.openObject stack s = .ok (turn, rest)) : TurnHolds P turn := by
  unfold Treatment.openObject at hopen
  split at hopen
  · cases hopen
    exact ⟨h.object (List.forall_mem_nil _), hstack⟩
  · cases hkey : t.readKey s with
    | error => rw [hkey] at hopen; cases hopen
    | ok =>
      rw [hkey] at hopen
      cases hopen
      exact List.forall_mem_cons.2 ⟨List.forall_mem_nil _, hstack⟩

/-- A step puts values together from parts that have the property. -/
theorem step (h : t.Builds P) (hholds : position.Holds P)
    (hstep : t.step enclosing position s = .ok (turn, rest)) : TurnHolds P turn := by
  unfold Treatment.step at hstep
  rcases position with stack | ⟨_ | ⟨⟨items⟩ | ⟨members, name⟩, stack⟩, v⟩
  case before =>
    dsimp only at hstep
    split at hstep
    · cases hstep
    · rename_i b tail _
      split_ifs at hstep
      · exact h.openArray hholds hstep
      · exact h.openObject hholds hstep
      · cases hscalar : t.scalar b tail with
        | error => rw [hscalar] at hstep; cases hstep
        | ok =>
          rw [hscalar] at hstep
          cases hstep
          exact ⟨h.scalar hscalar, hholds⟩
  case after.nil =>
    cases hstep
    exact hholds.1
  case after.cons.array =>
    obtain ⟨hframe, hstack⟩ := List.forall_mem_cons.1 hholds.2
    have hitems : ∀ item ∈ v :: items, P item := List.forall_mem_cons.2 ⟨hholds.1, hframe⟩
    dsimp only at hstep
    split at hstep
    · cases hstep
    · split_ifs at hstep
      · cases hstep
        exact List.forall_mem_cons.2 ⟨hitems, hstack⟩
      · cases hstep
        exact ⟨h.array fun item hitem => hitems item (List.mem_reverse.1 hitem), hstack⟩
  case after.cons.object =>
    obtain ⟨hframe, hstack⟩ := List.forall_mem_cons.1 hholds.2
    have hmembers : ∀ entry ∈ (name, v) :: members, P entry.2 :=
      List.forall_mem_cons.2 ⟨hholds.1, hframe⟩
    dsimp only at hstep
    split at hstep
    · cases hstep
    · rename_i b tail _
      split_ifs at hstep
      · cases hkey : t.readKey tail with
        | error => rw [hkey] at hstep; cases hstep
        | ok =>
          rw [hkey] at hstep
          cases hstep
          exact List.forall_mem_cons.2 ⟨hmembers, hstack⟩
      · cases hstep
        exact ⟨h.object fun entry hentry => hmembers entry (List.mem_reverse.1 hentry), hstack⟩

/-- The induction is along the steps: all values on the way have the property. -/
theorem of_readFrom (h : t.Builds P) (hholds : position.Holds P)
    (hread : t.readFrom enclosing position s = .ok (v, rest)) : P v := by
  induction position, s using (t.loop enclosing).induction with
  | hstep position s ih =>
    rw [readFrom, Loop.run_eq] at hread
    split at hread
    · cases hread
    · rename_i hstep
      cases hread
      exact h.step hholds hstep
    · rename_i hstep
      exact ih _ _ hstep (h.step hholds hstep) hread

/-- What passes from the parts of a value to the value holds of everything that is read. -/
theorem of_read (h : t.Builds P) (hread : t.read enclosing s = .ok (v, rest)) : P v := by
  have hnone : (Position.before [] : Position α κ).Holds P := List.forall_mem_nil _
  exact h.of_readFrom hnone hread

end Builds

end Treatment

/-! ## Values that are read -/

variable {limit : Option Nat} {v : Value}

/-- A value is exact unless there is a binary64 number in it. -/
def ExactUnlessFloat (v : Value) : Prop := ¬ v.HasFloat → v.IsExact

theorem exactUnlessFloat_readNumber {negative : Bool}
    (h : readNumber negative s = .ok (v, rest)) : ExactUnlessFloat v := by
  have hfloat : ∀ {x : Option Binary64}, x.map Value.float = some v → ExactUnlessFloat v := by
    intro x hx hnone
    obtain ⟨y, _, rfl⟩ := Option.map_eq_some_iff.1 hx
    exact absurd (.float y) hnone
  unfold readNumber at h
  split at h
  · cases h
  · split at h
    · rename_i hvalue
      cases h
      unfold Numeral.value? at hvalue
      dsimp only at hvalue
      split at hvalue
      · split_ifs at hvalue
        · rename_i hrange
          cases hvalue
          intro _
          exact .int (by omega) (by omega)
        · exact hfloat hvalue
        · rename_i hrange
          cases hvalue
          intro _
          exact .int (by omega) (by omega)
        · exact hfloat hvalue
      · exact hfloat hvalue
    · cases h

theorem exactUnlessFloat_readScalar {b : UInt8} (h : readScalar b s = .ok (v, rest)) :
    ExactUnlessFloat v := by
  unfold readScalar at h
  iterate 3
    split at h
    · cases hword : readLiteral _ s with
      | error => rw [hword] at h; cases h
      | ok => rw [hword] at h; cases h; intro; constructor
  split at h
  · cases hword : readString s with
    | error => rw [hword] at h; cases h
    | ok => rw [hword] at h; cases h; intro; constructor
  · split at h
    · exact exactUnlessFloat_readNumber h
    · split at h
      · exact exactUnlessFloat_readNumber h
      · cases h

/-- Of the members with one name the last one stays. -/
theorem exactUnlessFloat_ofMembers {members : List (String × Value)}
    (h : ∀ entry ∈ members, ExactUnlessFloat entry.2) : ExactUnlessFloat (.ofMembers members) := by
  intro hfloat
  refine .object (Dictionary.ofList members).sorted fun entry hentry => ?_
  have hmember : entry ∈ members := Dictionary.mem_of_mem_ofList hentry
  exact h entry hmember fun hvalue => hfloat (.object hentry hvalue)

theorem builds_exactUnlessFloat : (Treatment.keepWithin limit).Builds ExactUnlessFloat where
  scalar := exactUnlessFloat_readScalar
  array hitems hfloat := .array fun item hitem => hitems item hitem fun h => hfloat (.array hitem h)
  object := exactUnlessFloat_ofMembers

/-- A value that is read is exact if it has no binary64 numbers. -/
theorem isExact_of_parseWithin (h : parseWithin limit s = .ok v) (hfloat : ¬ v.HasFloat) :
    v.IsExact := by
  unfold parseWithin readDocument at h
  split at h
  · cases h
  · rename_i hread
    split at h
    · cases h
      exact builds_exactUnlessFloat.of_read hread hfloat
    · cases h

end PerfRelay.Json
