import PerfRelay.Decimal.Binary64
import PerfRelay.Failure
import PerfRelay.Journal
import PerfRelay.Json.Value
import PerfRelay.Policy.FilteringMode

/-!
# Events of a collection

Everything that a collection does to its surroundings is an event: the calls of its collaborators,
the batches that it hands on, its telemetry and its log entries.  The events of a run are a list in
the order in which they happen.
-/

namespace PerfRelay

/-- A measured record; its fields are fixed by whoever measures. -/
abbrev Record := Json.Value

/-- The kinds of records that are collected. -/
inductive Stream where
  | perf
  | insights
deriving DecidableEq, Repr

/-- What records are asked for. -/
structure Query where
  /-- A remote node, or the local one. -/
  node : Option String
  filteringMode : FilteringMode
  namespaces : NameSet
  /-- The time of the collection, shared by all its records. -/
  timestamp : String
deriving DecidableEq

/-- Whether records of a namespace are wanted. -/
def Query.allows (query : Query) (name : String) : Bool :=
  query.filteringMode.allows query.namespaces name

/-- A piece of telemetry. -/
inductive Report where
  | metric (name : String) (value : Binary64) (tags : Dictionary String)
  | exception (failure : Failure)
deriving DecidableEq

/-- Something that a collection does to its surroundings. -/
inductive Event where
  /-- A log entry was written. -/
  | logged (entry : Entry)
  /-- The configurations were asked for. -/
  | fetchedConfigurations
  /-- The nodes were asked for. -/
  | listedNodes
  /-- Records were asked for. -/
  | queried (stream : Stream) (query : Query)
  /-- What is remembered of all nodes was dropped. -/
  | resetNodeCache
  /-- What is remembered of all but the live nodes was dropped. -/
  | prunedNodeCache (live : List String)
  /-- A batch of records was handed on. -/
  | emitted (tag : String) (records : List Record)
  /-- A piece of telemetry was reported. -/
  | reported (report : Report)

/-- A value with the events on the way to it. -/
abbrev Traced (α : Type) := Noted Event α

/-- Writes a log entry. -/
def Traced.log (entry : Entry) : Traced PUnit := .note (.logged entry)

/-- Writes log entries. -/
def Traced.logAll (entries : List Entry) : Traced PUnit := .noteAll (entries.map .logged)

/-- Takes the log entries of a computation into the events. -/
def Traced.ofLogged {α : Type} (x : Noted Entry α) : Traced α := x.mapNotes .logged

end PerfRelay
