import PerfRelay.Collection.Source
import PerfRelay.Json.Document
import PerfRelay.Spool.FileTree

/-!
# The spool

Producers leave records as JSON arrays in files below a spool directory: one file for each stream,
for the local node in the directory itself and for a remote node in a directory of its name.

A file is taken once per time of change.  The time is read before the content, and it is the time
that is remembered, so a file that is replaced in between is taken again.

Main results:

- Theorem `consume_of_unchanged`: nothing is taken from a file whose time is remembered.
-/

namespace PerfRelay

namespace Spool

/-- The file of a stream. -/
def fileName : Stream → String
  | .perf => "perf.json"
  | .insights => "insights.json"

/-- The times of change of the files that were taken, by the names of their nodes.  The local node
has the empty name. -/
structure Consumed where
  perf : Dictionary Int
  insights : Dictionary Int
deriving DecidableEq

namespace Consumed

/-- Nothing was taken. -/
def empty : Consumed := ⟨.empty, .empty⟩

/-- The times of the files of a stream. -/
def times (consumed : Consumed) : Stream → Dictionary Int
  | .perf => consumed.perf
  | .insights => consumed.insights

/-- The time of the file of a stream that was taken for a node. -/
def get? (consumed : Consumed) (stream : Stream) (node : String) : Option Int :=
  (consumed.times stream).get? node

/-- Remembers the time of a file. -/
def insert (consumed : Consumed) (stream : Stream) (node : String) (modified : Int) : Consumed :=
  match stream with
  | .perf => { consumed with perf := consumed.perf.insert node modified }
  | .insights => { consumed with insights := consumed.insights.insert node modified }

/-- Forgets the files of the nodes that do not pass. -/
def filterNodes (consumed : Consumed) (passes : String → Bool) : Consumed :=
  ⟨consumed.perf.filterKeys passes, consumed.insights.filterKeys passes⟩

@[simp] theorem get?_insert_self (consumed : Consumed) (stream : Stream) (node : String)
    (modified : Int) : (consumed.insert stream node modified).get? stream node = some modified := by
  cases stream <;> simp [get?, times, insert]

theorem get?_insert_of_ne (consumed : Consumed) {stream other : Stream} {node node' : String}
    (modified : Int) (h : (other, node') ≠ (stream, node)) :
    (consumed.insert stream node modified).get? other node' = consumed.get? other node' := by
  cases stream <;> cases other <;> simp [get?, times, insert] at h ⊢ <;>
    exact Dictionary.get?_insert_of_ne _ _ h

theorem get?_filterNodes (consumed : Consumed) (passes : String → Bool) (stream : Stream)
    (node : String) :
    (consumed.filterNodes passes).get? stream node =
      if passes node then consumed.get? stream node else none := by
  cases stream <;> simp [get?, times, filterNodes, Dictionary.get?_filterKeys]

end Consumed

/-! ## Taking files -/

/-- The path of the file of a stream. -/
def path (root : String) (stream : Stream) : Option String → String
  | none => joinPath root (fileName stream)
  | some node => joinPath (joinPath root node) (fileName stream)

/-- Whether a record is wanted: those that carry no namespace always are. -/
def wants (query : Query) (record : Record) : Bool :=
  match (record.field? "Namespace").bind (·.asString?) with
  | some name => query.allows name
  | none => true

/-- Reads the records in the content of a file. -/
def parseRecords (content : List UInt8) : Except Json.Stop (List Record) :=
  Json.readDocument (Json.readArray 0) content

/-- The records in the file at a path. -/
def readRecords (files : FileTree) (path : String) : Except Failure (List Record) :=
  match files.read path with
  | .error kind => .error ⟨[s!"reading {path}"], .io kind⟩
  | .ok content => (parseRecords content).mapError fun stop => ⟨[s!"parsing {path}"], .json stop⟩

/-- What looking at the time of a file tells. -/
inductive Look where
  /-- There is no file. -/
  | absent
  /-- The file was taken already. -/
  | unchanged
  /-- The file is to be taken. -/
  | changed (modified : Int)
deriving DecidableEq, Repr

/-- Looks at the time of a file. -/
def look (files : FileTree) (path : String) (taken : Option Int) : Except Failure Look :=
  match files.modified path with
  | .error .notFound => .ok .absent
  | .error kind => .error ⟨[s!"reading {path}"], .io kind⟩
  | .ok modified => .ok (if taken = some modified then .unchanged else .changed modified)

/-- Takes the file that a query asks for.  The time is looked at in one state of the files, and the
content is read in a later one. -/
def consume (root : String) (stream : Stream) (query : Query) (before after : FileTree)
    (consumed : Consumed) : Noted Entry (Except Failure (List Record) × Consumed) :=
  let path := path root stream query.node
  let node := query.node.getD ""
  match look before path (consumed.get? stream node) with
  | .error failure => ⟨(.error failure, consumed), []⟩
  | .ok .absent => ⟨(.ok [], consumed), []⟩
  | .ok .unchanged => ⟨(.ok [], consumed), [.debug s!"{path} unchanged since last tick"]⟩
  | .ok (.changed modified) =>
    match readRecords after path with
    | .error failure => ⟨(.error failure, consumed), []⟩
    | .ok records =>
      ⟨(.ok (records.filter (wants query)), consumed.insert stream node modified), []⟩

/-- Nothing is taken from a file whose time is remembered. -/
theorem consume_of_unchanged {root : String} {stream : Stream} {query : Query}
    {before after : FileTree} {consumed : Consumed} {modified : Int}
    (htaken : consumed.get? stream (query.node.getD "") = some modified)
    (htime : before.modified (path root stream query.node) = .ok modified) :
    (consume root stream query before after consumed).value = (.ok [], consumed) := by
  simp [consume, look, htaken, htime]

/-- Whether a name stands for the local node, of which everything stays remembered. -/
def isLocal (node : String) : Bool := node.isEmpty

end Spool

/-- The source that takes records from a spool directory whose files stand as given. -/
structure SpoolSource where
  root : String
  files : FileTree
  consumed : Spool.Consumed

namespace SpoolSource

/-- A source that has taken nothing. -/
def start (root : String) (files : FileTree) : SpoolSource := ⟨root, files, .empty⟩

instance : MetricSource SpoolSource where
  fetch stream query source :=
    (fun (result, consumed) => (result, { source with consumed })) <$>
      Spool.consume source.root stream query source.files source.files source.consumed
  resetNodeCache source :=
    { source with consumed := source.consumed.filterNodes Spool.isLocal }
  pruneNodeCache live source :=
    { source with consumed :=
        source.consumed.filterNodes fun node => Spool.isLocal node || live.contains node }

end SpoolSource

end PerfRelay
