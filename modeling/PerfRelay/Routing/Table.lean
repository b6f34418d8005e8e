import PerfRelay.Configuration.Basic

/-!
# Routing tables

What is known of the output streams and settings of all data types.  Every answer with
configurations replaces the whole table, so it always stems from one answer; an answer without
configurations leaves it as it is.

Main results:

- Theorem `absorb_nil` and theorem `absorb_cons`: what an answer does to a table.
-/

namespace PerfRelay

/-- The output streams and settings of the last answer that had any. -/
structure RoutingTable where
  mapping : Dictionary String
  settings : Option Settings
  /-- How many answers have made the table. -/
  rebuilds : Nat

namespace RoutingTable

/-- The table before any answer. -/
def empty : RoutingTable := ⟨.empty, none, 0⟩

instance : Inhabited RoutingTable := ⟨empty⟩

/-- The table after an answer. -/
def absorb (table : RoutingTable) : List Configuration → RoutingTable
  | [] => table
  | configurations => ⟨streamMapping configurations, latestSettings configurations,
      table.rebuilds + 1⟩

/-- What is noted about an answer. -/
def absorbNotes : List Configuration → List Entry
  | [] => [.warn "no extension configurations received, keeping previous stream mapping"]
  | configurations =>
    streamNotes configurations ++
      [.info (s!"rebuilt stream mapping with {(streamMapping configurations).size} data types " ++
        s!"from {configurations.length} configurations")]

@[simp] theorem absorb_nil (table : RoutingTable) : table.absorb [] = table := rfl

theorem absorb_cons (table : RoutingTable) (first : Configuration) (rest : List Configuration) :
    table.absorb (first :: rest) =
      ⟨streamMapping (first :: rest), latestSettings (first :: rest), table.rebuilds + 1⟩ := rfl

/-- The output stream of a data type; the empty text stands for no stream. -/
def streamOf (table : RoutingTable) (dataType : String) : String :=
  (table.mapping.get? dataType).getD ""

end RoutingTable

end PerfRelay
