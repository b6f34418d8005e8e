import PerfRelay.Proofs.Json.Parts

/-!
# Passing over values

A value of which nothing is wanted is passed over to its last byte, however deep the arrays and
objects are in it.

Main results:

- Theorem `Element.takes`: a value is passed over, whatever is open around it.
- Theorem `skipValue_of_element`: a value is passed over with the white space before it.
-/

namespace PerfRelay.Json

variable {s rest : List UInt8}

/-- Where values are passed over, nothing limits their depth. -/
theorem pass_allows (depth : Nat) : Treatment.pass.Allows depth := by
  intro limit hlimit
  cases hlimit

/-- So the depth of what is passed over does not count. -/
theorem Treatment.Takes.of_pass {depth : Nat} {v : Unit} (h : Treatment.pass.Takes depth v s)
    (depth' : Nat) : Treatment.pass.Takes depth' v s :=
  ⟨h.begins, fun enclosing stack rest _ hrest => h.reads enclosing stack rest (pass_allows _) hrest⟩

theorem takesKey_of_name {name : List UInt8} (h : Name name) : Treatment.pass.TakesKey () name := by
  cases h with
  | quoted hbefore h hafter =>
    exact Treatment.takesKey_quoted hbefore (skipString_of_quoted h) hafter

/-- A value is passed over, whatever is open around it.  The induction is on the value. -/
theorem Element.takes (h : Element s) : Treatment.pass.Takes 0 () s := by
  induction h with
  | word hbefore hword hafter =>
    obtain ⟨b, tail, rfl, hb, hskip⟩ := skipScalar_of_word hword
    exact Treatment.takes_word hbefore hb hskip hafter
  | emptyArray hbefore hinside hafter =>
    have harray : Treatment.pass.Takes 1 () _ :=
      Treatment.takes_emptyArray hbefore hinside hafter
    exact harray.of_pass 0
  | @array before after items hbefore _ _ hafter ih =>
    have hitems : List.Forall₂ (Treatment.pass.Takes 0) (items.map fun _ => ()) items :=
      List.forall₂_map_left_iff.2 (List.forall₂_same.2 ih)
    have harray : Treatment.pass.Takes 1 () _ := Treatment.takes_array hbefore hitems hafter
    exact harray.of_pass 0
  | emptyObject hbefore hinside hafter =>
    have hobject : Treatment.pass.Takes 1 () _ :=
      Treatment.takes_emptyObject hbefore hinside hafter
    exact hobject.of_pass 0
  | @object before after entries hbefore _ hnames _ hafter ih =>
    have hmembers : List.Forall₂ (Treatment.pass.TakesMember 0) (entries.map fun _ => ((), ()))
        (entries.map member) := by
      rw [List.forall₂_map_left_iff, List.forall₂_map_right_iff, List.forall₂_same]
      intro entry hentry
      exact .member (takesKey_of_name (hnames entry hentry)) (ih entry hentry)
    have hobject : Treatment.pass.Takes 1 () _ := Treatment.takes_object hbefore hmembers hafter
    exact hobject.of_pass 0

/-- A value is passed over with the white space before it, and what may follow it is left. -/
theorem skipValue_of_element (h : Element s) (hrest : Follows rest) :
    ∃ gap, Blank gap ∧ skipValue (s ++ rest) = .ok ((), gap ++ rest) :=
  h.takes.read_eq (pass_allows _) hrest

end PerfRelay.Json
