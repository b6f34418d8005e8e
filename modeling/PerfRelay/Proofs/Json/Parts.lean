import Mathlib.Data.List.Forall2
import PerfRelay.Proofs.Json.Grammar

/-!
# Reading arrays and objects, part by part

A reader that takes the parts of an array or an object takes the whole of it.  This is so for
values that are kept and for values that are passed over, and it does not matter what is open
around them, as long as the parts may be nested that deep.

Main results:

- Theorems `takes_array` and `takes_object`: arrays and objects of parts that are taken.
- Theorem `Takes.read_eq`: a value that is taken is read, and what may follow it is left.
-/

namespace PerfRelay.Json

/-- Parts with a comma before each of them may follow a value, too. -/
theorem Follows.after_parts {rest : List UInt8} (h : Follows rest) (parts : List (List UInt8)) :
    Follows (afterCommas parts ++ rest) := by
  rcases parts with _ | ⟨part, parts⟩
  · exact h
  · rw [afterCommas_cons]
    exact follows_cons (.inl rfl) _

/-- The bytes begin with something that is not the end of an array. -/
def Begins (s : List UInt8) : Prop := ∃ b tail, next s = .ok (b, tail) ∧ b ≠ byte ']'

theorem begins_of_blank_append {before tail : List UInt8} {b : UInt8} (hbefore : Blank before)
    (hspace : isSpace b = false) (hb : b ≠ byte ']') : Begins (before ++ b :: tail) :=
  ⟨b, tail, next_of_blank_append hbefore hspace tail, hb⟩

/-- What begins with a byte after white space begins with it whatever follows. -/
theorem begins_append {before tail : List UInt8} {b : UInt8} (hbefore : Blank before)
    (hspace : isSpace b = false) (hb : b ≠ byte ']') (rest : List UInt8) :
    Begins (before ++ b :: tail ++ rest) := by
  rw [List.append_assoc]
  exact begins_of_blank_append hbefore hspace hb

namespace Treatment

variable {α κ : Type} {t : Treatment α κ} {enclosing depth : Nat} {stack : List (Frame α κ)}
  {v : α} {key : κ} {gap s rest : List UInt8}

/-- Reads what is left of a value from a position on. -/
def readFrom (t : Treatment α κ) (enclosing : Nat) (position : Position α κ) (s : List UInt8) :
    Reading Stop α :=
  (t.loop enclosing).run position s

theorem readFrom_of_step {position next : Position α κ}
    (h : t.step enclosing position s = .ok (.again next, rest)) :
    t.readFrom enclosing position s = t.readFrom enclosing next rest :=
  Loop.run_of_again h

/-- So many arrays and objects may be open at a time. -/
def Allows (t : Treatment α κ) (depth : Nat) : Prop :=
  ∀ limit, t.depthLimit = some limit → depth ≤ limit

theorem Allows.of_le {depth' : Nat} (h : t.Allows depth') (hle : depth ≤ depth') :
    t.Allows depth :=
  fun limit hlimit => Nat.le_trans hle (h limit hlimit)

theorem isFull_of_allows (h : t.Allows (enclosing + stack.length + 1)) :
    t.isFull enclosing stack = false := by
  unfold isFull
  split
  · rfl
  · rename_i limit hlimit
    have := h limit hlimit
    rw [decide_eq_false_iff_not]
    omega

/-! ## What is taken -/

/-- A value is taken from some bytes, whatever is open around it, if there is room for so many
arrays and objects inside one another.  White space behind it may be left. -/
structure Takes (t : Treatment α κ) (depth : Nat) (v : α) (s : List UInt8) : Prop where
  begins : ∀ rest, Begins (s ++ rest)
  reads : ∀ enclosing stack rest, t.Allows (enclosing + stack.length + depth) → Follows rest →
    ∃ gap, Blank gap ∧ t.readFrom enclosing (.before stack) (s ++ rest) =
      t.readFrom enclosing (.after stack v) (gap ++ rest)

/-- The name of a member is taken from some bytes. -/
structure TakesKey (t : Treatment α κ) (key : κ) (s : List UInt8) : Prop where
  /-- The bytes do not begin with the end of an object. -/
  begins : ∀ rest, expect (byte '\x7d') (s ++ rest) = .error .malformed
  reads : ∀ rest, t.readKey (s ++ byte ':' :: rest) = .ok (key, rest)

/-- A member is taken from some bytes. -/
inductive TakesMember (t : Treatment α κ) (depth : Nat) : κ × α → List UInt8 → Prop where
  | member {key : κ} {v : α} {name value : List UInt8} (hname : t.TakesKey key name)
      (hvalue : t.Takes depth v value) : TakesMember t depth (key, v) (Json.member (name, value))

/-- A value that is taken is read, and what may follow it is left. -/
theorem Takes.read_eq (h : t.Takes depth v s) (hroom : t.Allows (enclosing + depth))
    (hrest : Follows rest) :
    ∃ gap, Blank gap ∧ t.read enclosing (s ++ rest) = .ok (v, gap ++ rest) := by
  obtain ⟨gap, hgap, hread⟩ := h.reads enclosing [] rest hroom hrest
  exact ⟨gap, hgap, hread.trans (Loop.run_of_finish rfl)⟩

/-! ## Words and names -/

theorem takes_word {b : UInt8} {before tail after : List UInt8} (hbefore : Blank before)
    (hb : BeginsWord b)
    (hscalar : ∀ rest, Follows rest → t.scalar b (tail ++ rest) = .ok (v, rest))
    (hafter : Blank after) : t.Takes depth v (before ++ (b :: tail ++ after)) := by
  constructor
  · exact begins_append hbefore hb.notSpace hb.notArrayEnd
  · intro enclosing stack rest _ hrest
    refine ⟨after, hafter, ?_⟩
    rw [List.append_assoc, List.append_assoc]
    apply readFrom_of_step
    rw [List.cons_append, step, next_of_blank_append hbefore hb.notSpace]
    simp only [if_neg hb.notArray, if_neg hb.notObject, hscalar _ (hrest.after_blank hafter),
      Except.map]

/-- A name between quotes, as the reader of names takes it. -/
theorem takesKey_quoted {before after : List UInt8} (hbefore : Blank before)
    (hname : ∀ rest, t.name (s ++ byte '"' :: rest) = .ok (key, rest)) (hafter : Blank after) :
    t.TakesKey key (before ++ byte '"' :: (s ++ byte '"' :: after)) := by
  constructor
  · intro rest
    rw [List.append_assoc]
    exact expect_of_next_ne (next_of_blank_append hbefore rfl _) (by decide)
  · intro rest
    have hopen : expect (byte '"') (before ++ byte '"' :: (s ++ byte '"' ::
        (after ++ byte ':' :: rest))) = .ok ((), s ++ byte '"' :: (after ++ byte ':' :: rest)) :=
      expect_of_next (next_of_blank_append hbefore rfl _)
    have hcolon : expect (byte ':') (after ++ byte ':' :: rest) = .ok ((), rest) :=
      expect_of_next (next_of_blank_append hafter rfl rest)
    simp only [List.append_assoc, List.cons_append, readKey, hopen, hname, hcolon, Except.map]

/-! ## The brackets and commas of an array -/

theorem readFrom_emptyArray (hroom : t.Allows (enclosing + stack.length + 1)) (hgap : Blank gap)
    {inside : List UInt8} (hinside : Blank inside) :
    t.readFrom enclosing (.before stack) (gap ++ byte '[' :: (inside ++ byte ']' :: rest)) =
      t.readFrom enclosing (.after stack (t.array [])) rest := by
  have hclose : expect (byte ']') (inside ++ byte ']' :: rest) = .ok ((), rest) :=
    expect_of_next (next_of_blank_append hinside rfl rest)
  apply readFrom_of_step
  rw [step, next_of_blank_append hgap rfl]
  simp only [if_true, isFull_of_allows hroom, Bool.false_eq_true, if_false, openArray, hclose]

theorem readFrom_openArray (hroom : t.Allows (enclosing + stack.length + 1)) (hgap : Blank gap)
    {b : UInt8} (hnext : next s = .ok (b, rest)) (hb : b ≠ byte ']') :
    t.readFrom enclosing (.before stack) (gap ++ byte '[' :: s) =
      t.readFrom enclosing (.before (.array [] :: stack)) s := by
  apply readFrom_of_step
  rw [step, next_of_blank_append hgap rfl]
  simp only [if_true, isFull_of_allows hroom, Bool.false_eq_true, if_false, openArray,
    expect_of_next_ne hnext hb]

theorem readFrom_nextItem (hgap : Blank gap) (items : List α) :
    t.readFrom enclosing (.after (.array items :: stack) v) (gap ++ byte ',' :: s) =
      t.readFrom enclosing (.before (.array (v :: items) :: stack)) s := by
  apply readFrom_of_step
  rw [step, next_of_blank_append hgap rfl]
  rfl

theorem readFrom_closeArray (hgap : Blank gap) (items : List α) :
    t.readFrom enclosing (.after (.array items :: stack) v) (gap ++ byte ']' :: s) =
      t.readFrom enclosing (.after stack (t.array (v :: items).reverse)) s := by
  apply readFrom_of_step
  rw [step, next_of_blank_append hgap rfl]
  rfl

/-! ## The braces, names and commas of an object -/

theorem readFrom_emptyObject (hroom : t.Allows (enclosing + stack.length + 1)) (hgap : Blank gap)
    {inside : List UInt8} (hinside : Blank inside) :
    t.readFrom enclosing (.before stack) (gap ++ byte '\x7b' :: (inside ++ byte '\x7d' :: rest)) =
      t.readFrom enclosing (.after stack (t.object [])) rest := by
  have hclose : expect (byte '\x7d') (inside ++ byte '\x7d' :: rest) = .ok ((), rest) :=
    expect_of_next (next_of_blank_append hinside rfl rest)
  have hother : byte '\x7b' ≠ byte '[' := by decide
  apply readFrom_of_step
  rw [step, next_of_blank_append hgap rfl]
  simp only [if_neg hother, if_true, isFull_of_allows hroom, Bool.false_eq_true, if_false,
    openObject, hclose]

theorem readFrom_openObject (hroom : t.Allows (enclosing + stack.length + 1)) (hgap : Blank gap)
    {name : List UInt8} (hname : t.TakesKey key name) :
    t.readFrom enclosing (.before stack) (gap ++ byte '\x7b' :: (name ++ byte ':' :: s)) =
      t.readFrom enclosing (.before (.object [] key :: stack)) s := by
  have hother : byte '\x7b' ≠ byte '[' := by decide
  apply readFrom_of_step
  rw [step, next_of_blank_append hgap rfl]
  simp only [if_neg hother, if_true, isFull_of_allows hroom, Bool.false_eq_true, if_false,
    openObject, hname.begins, hname.reads, Except.map]

theorem readFrom_nextMember (hgap : Blank gap) {name : List UInt8} {key' : κ}
    (hname : t.TakesKey key' name) (members : List (κ × α)) :
    t.readFrom enclosing (.after (.object members key :: stack) v)
        (gap ++ byte ',' :: (name ++ byte ':' :: s)) =
      t.readFrom enclosing (.before (.object ((key, v) :: members) key' :: stack)) s := by
  apply readFrom_of_step
  rw [step, next_of_blank_append hgap rfl]
  simp only [if_true, hname.reads, Except.map]

theorem readFrom_closeObject (hgap : Blank gap) (members : List (κ × α)) :
    t.readFrom enclosing (.after (.object members key :: stack) v) (gap ++ byte '\x7d' :: s) =
      t.readFrom enclosing (.after stack (t.object ((key, v) :: members).reverse)) s := by
  apply readFrom_of_step
  rw [step, next_of_blank_append hgap rfl]
  rfl

/-! ## Arrays and objects -/

/-- Some items of an array after the first one, each with its comma.  The induction is on these
items; `done` are those before the last one that was read. -/
theorem readFrom_moreItems {items : List α} {texts : List (List UInt8)}
    (h : List.Forall₂ (t.Takes depth) items texts)
    (hroom : t.Allows (enclosing + (stack.length + 1) + depth)) (hgap : Blank gap)
    (done : List α) (v : α) (hrest : Follows rest) :
    ∃ gap' done' v', Blank gap' ∧ (v' :: done').reverse = done.reverse ++ v :: items ∧
      t.readFrom enclosing (.after (.array done :: stack) v) (gap ++ (afterCommas texts ++ rest)) =
        t.readFrom enclosing (.after (.array done' :: stack) v') (gap' ++ rest) := by
  induction h generalizing v gap done with
  | nil => exact ⟨gap, done, v, hgap, List.reverse_cons, rfl⟩
  | @cons item text items texts hitem _ ih =>
    obtain ⟨gap', hgap', hread⟩ := hitem.reads enclosing (.array (v :: done) :: stack) _ hroom
      (hrest.after_parts texts)
    obtain ⟨gap'', done', v', hgap'', hdone, hmore⟩ := ih hgap' (v :: done) item
    refine ⟨gap'', done', v', hgap'', ?_, ?_⟩
    · rw [hdone, List.reverse_cons, List.append_assoc, List.singleton_append]
    · rw [afterCommas_cons, readFrom_nextItem hgap, hread, hmore]

/-- Some items of an array from its bracket on; `done` are those before the last one. -/
theorem readFrom_someItems {items : List α} {texts : List (List UInt8)}
    (h : List.Forall₂ (t.Takes depth) items texts) (hsome : texts ≠ [])
    (hroom : t.Allows (enclosing + stack.length + (depth + 1))) (hgap : Blank gap)
    (hrest : Follows rest) :
    ∃ gap' done v, Blank gap' ∧ (v :: done).reverse = items ∧
      t.readFrom enclosing (.before stack) (gap ++ byte '[' :: (joined texts ++ rest)) =
        t.readFrom enclosing (.after (.array done :: stack) v) (gap' ++ rest) := by
  cases h with
  | nil => exact absurd rfl hsome
  | @cons item text items texts hitem hitems =>
    have hopen : t.Allows (enclosing + stack.length + 1) := hroom.of_le (by omega)
    have hinside : t.Allows (enclosing + (stack.length + 1) + depth) := hroom.of_le (by omega)
    obtain ⟨b, tail, hnext, hb⟩ := hitem.begins (afterCommas texts ++ rest)
    obtain ⟨gap', hgap', hread⟩ := hitem.reads enclosing (.array [] :: stack) _ hinside
      (hrest.after_parts texts)
    rw [joined, List.append_assoc, readFrom_openArray hopen hgap hnext hb, hread]
    exact readFrom_moreItems hitems hinside hgap' [] item hrest

/-- An array is read item by item up to its bracket, whatever comes after that. -/
theorem readFrom_array {items : List α} {texts : List (List UInt8)}
    (h : List.Forall₂ (t.Takes depth) items texts)
    (hroom : t.Allows (enclosing + stack.length + (depth + 1))) (hgap : Blank gap) :
    t.readFrom enclosing (.before stack) (gap ++ byte '[' :: (joined texts ++ byte ']' :: rest)) =
      t.readFrom enclosing (.after stack (t.array items)) rest := by
  by_cases hsome : texts = []
  · subst hsome
    cases h
    have hinside : Blank [] := rfl
    exact readFrom_emptyArray (hroom.of_le (by omega)) hgap hinside
  · have hend : Follows (byte ']' :: rest) := follows_cons (.inr (.inl rfl)) rest
    obtain ⟨gap', done, v, hgap', hdone, hread⟩ := readFrom_someItems h hsome hroom hgap hend
    rw [hread, readFrom_closeArray hgap', hdone]

/-- An array is taken if its items are. -/
theorem takes_array {items : List α} {texts : List (List UInt8)} {before after : List UInt8}
    (hbefore : Blank before) (h : List.Forall₂ (t.Takes depth) items texts) (hafter : Blank after) :
    t.Takes (depth + 1) (t.array items)
      (before ++ byte '[' :: (joined texts ++ byte ']' :: after)) := by
  constructor
  · exact begins_append hbefore rfl (by decide)
  · intro enclosing stack rest hroom _
    refine ⟨after, hafter, ?_⟩
    simp only [List.append_assoc, List.cons_append]
    exact readFrom_array h hroom hbefore

/-- Some members of an object after the first one, each with its comma.  The induction is on these
members; `done` are those before the last one that was read. -/
theorem readFrom_moreMembers {members : List (κ × α)} {texts : List (List UInt8)}
    (h : List.Forall₂ (t.TakesMember depth) members texts)
    (hroom : t.Allows (enclosing + (stack.length + 1) + depth)) (hgap : Blank gap)
    (done : List (κ × α)) (key : κ) (v : α) (hrest : Follows rest) :
    ∃ gap' done' key' v', Blank gap' ∧
      ((key', v') :: done').reverse = done.reverse ++ (key, v) :: members ∧
      t.readFrom enclosing (.after (.object done key :: stack) v)
          (gap ++ (afterCommas texts ++ rest)) =
        t.readFrom enclosing (.after (.object done' key' :: stack) v') (gap' ++ rest) := by
  induction h generalizing v key gap done with
  | nil => exact ⟨gap, done, key, v, hgap, List.reverse_cons, rfl⟩
  | @cons entry text members texts hmember _ ih =>
    cases hmember with
    | @member key' v' name value hname hvalue =>
      obtain ⟨gap', hgap', hread⟩ := hvalue.reads enclosing
        (.object ((key, v) :: done) key' :: stack) _ hroom (hrest.after_parts texts)
      obtain ⟨gap'', done', key'', v'', hgap'', hdone, hmore⟩ :=
        ih hgap' ((key, v) :: done) key' v'
      refine ⟨gap'', done', key'', v'', hgap'', ?_, ?_⟩
      · rw [hdone, List.reverse_cons, List.append_assoc, List.singleton_append]
      · rw [afterCommas_cons, Json.member, List.append_assoc, List.cons_append,
          readFrom_nextMember hgap hname, hread, hmore]

/-- Some members of an object from its brace on; `done` are those before the last one. -/
theorem readFrom_someMembers {members : List (κ × α)} {texts : List (List UInt8)}
    (h : List.Forall₂ (t.TakesMember depth) members texts) (hsome : texts ≠ [])
    (hroom : t.Allows (enclosing + stack.length + (depth + 1))) (hgap : Blank gap)
    (hrest : Follows rest) :
    ∃ gap' done key v, Blank gap' ∧ ((key, v) :: done).reverse = members ∧
      t.readFrom enclosing (.before stack) (gap ++ byte '\x7b' :: (joined texts ++ rest)) =
        t.readFrom enclosing (.after (.object done key :: stack) v) (gap' ++ rest) := by
  cases h with
  | nil => exact absurd rfl hsome
  | @cons entry text members texts hmember hmembers =>
    cases hmember with
    | @member key v name value hname hvalue =>
      have hopen : t.Allows (enclosing + stack.length + 1) := hroom.of_le (by omega)
      have hinside : t.Allows (enclosing + (stack.length + 1) + depth) := hroom.of_le (by omega)
      obtain ⟨gap', hgap', hread⟩ := hvalue.reads enclosing (.object [] key :: stack) _ hinside
        (hrest.after_parts texts)
      rw [joined, Json.member, List.append_assoc, List.append_assoc, List.cons_append,
        readFrom_openObject hopen hgap hname, hread]
      exact readFrom_moreMembers hmembers hinside hgap' [] key v hrest

/-- An object is read member by member up to its brace, whatever comes after that. -/
theorem readFrom_object {members : List (κ × α)} {texts : List (List UInt8)}
    (h : List.Forall₂ (t.TakesMember depth) members texts)
    (hroom : t.Allows (enclosing + stack.length + (depth + 1))) (hgap : Blank gap) :
    t.readFrom enclosing (.before stack)
        (gap ++ byte '\x7b' :: (joined texts ++ byte '\x7d' :: rest)) =
      t.readFrom enclosing (.after stack (t.object members)) rest := by
  by_cases hsome : texts = []
  · subst hsome
    cases h
    have hinside : Blank [] := rfl
    exact readFrom_emptyObject (hroom.of_le (by omega)) hgap hinside
  · have hend : Follows (byte '\x7d' :: rest) := follows_cons (.inr (.inr rfl)) rest
    obtain ⟨gap', done, key, v, hgap', hdone, hread⟩ :=
      readFrom_someMembers h hsome hroom hgap hend
    rw [hread, readFrom_closeObject hgap', hdone]

/-- An object is taken if its members are. -/
theorem takes_object {members : List (κ × α)} {texts : List (List UInt8)}
    {before after : List UInt8} (hbefore : Blank before)
    (h : List.Forall₂ (t.TakesMember depth) members texts) (hafter : Blank after) :
    t.Takes (depth + 1) (t.object members)
      (before ++ byte '\x7b' :: (joined texts ++ byte '\x7d' :: after)) := by
  constructor
  · exact begins_append hbefore rfl (by decide)
  · intro enclosing stack rest hroom _
    refine ⟨after, hafter, ?_⟩
    simp only [List.append_assoc, List.cons_append]
    exact readFrom_object h hroom hbefore

/-- An array with nothing but white space in it. -/
theorem takes_emptyArray {before inside after : List UInt8} (hbefore : Blank before)
    (hinside : Blank inside) (hafter : Blank after) :
    t.Takes (depth + 1) (t.array []) (before ++ byte '[' :: (inside ++ byte ']' :: after)) := by
  constructor
  · exact begins_append hbefore rfl (by decide)
  · intro enclosing stack rest hroom _
    refine ⟨after, hafter, ?_⟩
    simp only [List.append_assoc, List.cons_append]
    exact readFrom_emptyArray (hroom.of_le (by omega)) hbefore hinside

/-- An object with nothing but white space in it. -/
theorem takes_emptyObject {before inside after : List UInt8} (hbefore : Blank before)
    (hinside : Blank inside) (hafter : Blank after) :
    t.Takes (depth + 1) (t.object [])
      (before ++ byte '\x7b' :: (inside ++ byte '\x7d' :: after)) := by
  constructor
  · exact begins_append hbefore rfl (by decide)
  · intro enclosing stack rest hroom _
    refine ⟨after, hafter, ?_⟩
    simp only [List.append_assoc, List.cons_append]
    exact readFrom_emptyObject (hroom.of_le (by omega)) hbefore hinside

end Treatment

end PerfRelay.Json
