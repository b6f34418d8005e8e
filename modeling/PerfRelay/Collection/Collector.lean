import PerfRelay.Clock
import PerfRelay.Collection.Registry
import PerfRelay.Environment
import PerfRelay.Policy.Basic
import PerfRelay.Routing.Cache
import PerfRelay.Runner.Thread
import PerfRelay.Telemetry.Counters

/-!
# Collectors

A collector gathers records in ticks.  In a tick it looks up the output streams of its data types,
if it is to do so, brings its list of remote nodes up to date, asks the source for the records of
every target and hands the batches on under their tags.  What fails is noted and reported, and
nothing else suffers from it.

Main results:

- Theorem `deliver_nil` and theorem `deliver_untagged`: which batches are not handed on.
- Theorem `targets_single`: without remote nodes the local node is the only target.
-/

namespace PerfRelay

namespace Stream

/-- The data type of a stream. -/
def dataType : Stream → String
  | .perf => "LINUX_PERF_BLOB"
  | .insights => "INSIGHTS_METRICS_BLOB"

/-- The tag of a stream whose output stream was never looked up. -/
def defaultTag (stream : Stream) : String :=
  s!"oneagent.containerInsights.{stream.dataType}"

/-- The word that marks a batch that was handed on; collectors of remote nodes have words of their
own. -/
def successMarker : Stream → Bool → String
  | .perf, false => "cAdvisorPerfEmitStreamSuccess"
  | .insights, false => "cAdvisorInsightsMetricsEmitStreamSuccess"
  | .perf, true => "winCAdvisorPerfEmitStreamSuccess"
  | .insights, true => "winCAdvisorInsightsMetricsEmitStreamSuccess"

end Stream

/-- The choices for a collector. -/
structure CollectorOptions where
  name : String
  /-- Output streams are looked up. -/
  looksUpStreams : Bool
  /-- Every batch that was handed on is noted. -/
  notesBatches : Bool
  /-- The interval in microseconds until settings say otherwise. -/
  runInterval : Nat
  /-- A second tag for the batches of the local node and for the insights of remote nodes. -/
  secondTag : Option String
deriving DecidableEq, Repr

/-- The choices that follow from the environment. -/
def CollectorOptions.ofEnvironment (name : String) (environment : Environment) : CollectorOptions :=
  ⟨name, environment.looksUpStreams, environment.notesBatches,
    Interval.defaultSeconds * 1000000, none⟩

/-- How long a window of telemetry is, in microseconds. -/
def telemetryWindow : Nat := 300 * 1000000

/-- How often the source drops what it remembers of nodes that are gone, in microseconds. -/
def cleanupInterval : Nat := 300 * 1000000

/-- The metric for the number of perf records. -/
def recordCountMetric : String := "PerfRecordCount"

/-- A collector of records, with its source and with a registry if it collects from remote nodes. -/
structure Collector (σ μ : Type) where
  options : CollectorOptions
  source : σ
  registry : Option (NodeRegistry μ)
  policy : Policy
  perfTag : String
  insightsTag : String
  /-- When the fetcher was asked last on behalf of this collector. -/
  configRefreshedAt : Nat
  counters : Counters
  /-- When the source dropped what it remembers of nodes that are gone. -/
  cleanedUpAt : Nat

namespace Collector

variable {σ μ φ : Type}

/-- A new collector. -/
def start (options : CollectorOptions) (source : σ) (lister : Option μ) (now : Nat) :
    Collector σ μ where
  options
  source
  registry := lister.map NodeRegistry.start
  policy := .initial (max (options.runInterval / 1000000) 1)
  perfTag := Stream.perf.defaultTag
  insightsTag := Stream.insights.defaultTag
  configRefreshedAt := now
  counters := .start now
  cleanedUpAt := now

/-- The tag of a stream. -/
def tag (collector : Collector σ μ) : Stream → String
  | .perf => collector.perfTag
  | .insights => collector.insightsTag

/-- The remote nodes. -/
def nodes (collector : Collector σ μ) : List String :=
  match collector.registry with
  | none => []
  | some registry => registry.nodes

/-- Whether the collector collects from remote nodes. -/
def isRemote (collector : Collector σ μ) : Bool := collector.registry.isSome

/-- The nodes to collect from; `none` is the local one. -/
def targets (collector : Collector σ μ) : List (Option String) :=
  match collector.registry with
  | none => [none]
  | some registry => registry.nodes.map some

theorem targets_single {collector : Collector σ μ} (h : collector.registry = none) :
    collector.targets = [none] := by
  simp [targets, h]

/-! ## Looking up output streams -/

/-- Remembers when the fetcher was asked. -/
def noteLookup (collector : Collector σ μ) (now : Nat) (fromTable : Bool) : Collector σ μ :=
  if fromTable then collector else { collector with configRefreshedAt := now }

/-- The tag of a stream after it was looked up. -/
def lookUp [ConfigurationFetcher φ] (collector : Collector σ μ) (now : Nat) (stream : Stream)
    (cache : RoutingCache φ) :
    Traced (RoutingCache.Resolution × Collector σ μ × RoutingCache φ) :=
  (fun (found, cache) => (found, collector.noteLookup now found.fromTable, cache)) <$>
    cache.outputStream stream.dataType (collector.tag stream) (now - collector.configRefreshedAt)

/-- What is noted about a stream that has lost its output stream. -/
def lossNotes (collector : Collector σ μ) (stream : Stream) (tag : String) : List Entry :=
  if tag.isEmpty && !(collector.tag stream).isEmpty then
    [.warn (s!"{collector.options.name}: {stream.dataType} is not routed to any output stream, " ++
      "skipping it")]
  else []

/-- What is noted about new tags. -/
def tagNotes (collector : Collector σ μ) (perfTag insightsTag : String) : List Entry :=
  if perfTag = collector.perfTag ∧ insightsTag = collector.insightsTag then []
  else
    .info (s!"{collector.options.name}: output streams perf='{perfTag}' " ++
      s!"insights metrics='{insightsTag}'") ::
      (collector.lossNotes .perf perfTag ++ collector.lossNotes .insights insightsTag)

/-- Looks up both streams, and takes over the policy of the table if that was rebuilt. -/
def refreshStreams [ConfigurationFetcher φ] (now : Nat) (collector : Collector σ μ)
    (cache : RoutingCache φ) : Traced (Collector σ μ × RoutingCache φ) := do
  let (perf, collector, cache) ← collector.lookUp now .perf cache
  let (insights, collector, cache) ← collector.lookUp now .insights cache
  let settings := if perf.fromTable && insights.fromTable then none else cache.table.settings
  Traced.logAll (Policy.resolveNotes settings)
  Traced.logAll (collector.tagNotes perf.stream insights.stream)
  let collector := { collector with
    policy := Policy.resolve settings collector.policy
    perfTag := perf.stream
    insightsTag := insights.stream }
  return (collector, cache)

/-! ## Collecting from a target -/

/-- The part of an entry that names a remote node. -/
def nodeSuffix : Option String → String
  | none => ""
  | some node => s!" for node {node}"

/-- What is noted about a batch that was handed on.  The calendar is read once more for the entry,
and a star stands for what it says then. -/
def successNotes (collector : Collector σ μ) (stream : Stream) (node : Option String)
    (count : Nat) : List Event :=
  if collector.options.notesBatches then
    [.logged (.info (s!"{stream.successMarker collector.isRemote} @ {unspecified}: " ++
      s!"emitted {count} records{nodeSuffix node}"))]
  else []

/-- The second tag that a batch of a stream is handed on under. -/
def secondTag? (collector : Collector σ μ) (stream : Stream) : Option String :=
  if !collector.isRemote || stream = .insights then collector.options.secondTag else none

/-- Hands a batch on under its tags.  An empty batch is dropped, and so is one without an output
stream. -/
def deliver (collector : Collector σ μ) (stream : Stream) (node : Option String)
    (records : List Record) : List Event :=
  if records.isEmpty then []
  else if (collector.tag stream).isEmpty then
    [.logged (.debug (s!"{collector.options.name}: skipping {stream.dataType} batch, " ++
      "stream is not routed"))]
  else
    (collector.tag stream :: (collector.secondTag? stream).toList).map (.emitted · records) ++
      collector.successNotes stream node records.length

@[simp] theorem deliver_nil (collector : Collector σ μ) (stream : Stream)
    (node : Option String) : collector.deliver stream node [] = [] := rfl

/-- A batch without an output stream is noted and not handed on. -/
theorem deliver_untagged {collector : Collector σ μ} {stream : Stream} {node : Option String}
    {records : List Record} (h : collector.tag stream = "") (tag : String) (batch : List Record) :
    .emitted tag batch ∉ collector.deliver stream node records := by
  unfold deliver
  split <;> simp [h]

/-- Notes and reports a query that failed. -/
def reportFailure (collector : Collector σ μ) (stream : Stream) (node : Option String)
    (failure : Failure) : List Event :=
  [.logged (.warn (s!"{collector.options.name}: failed to collect {stream.dataType}" ++
      s!"{nodeSuffix node}: {failure.message}")),
    .reported (.exception failure)]

/-- What follows from the answer to a query. -/
def handle (collector : Collector σ μ) (stream : Stream) (node : Option String) :
    Except Failure (List Record) → List Event
  | .ok records => collector.deliver stream node records
  | .error failure => collector.reportFailure stream node failure

/-- The number of records in an answer. -/
def answerCount : Except Failure (List Record) → Nat
  | .ok records => records.length
  | .error _ => 0

/-- What a target is asked for. -/
def query (collector : Collector σ μ) (utc : Nat) (node : Option String) : Query :=
  ⟨node, collector.policy.filteringMode, collector.policy.namespaces, Calendar.stamp utc⟩

/-- Asks the source for the records of a stream. -/
def ask [MetricSource σ] (collector : Collector σ μ) (utc : Nat) (stream : Stream)
    (node : Option String) : Traced (Except Failure (List Record) × Collector σ μ) := do
  let query := collector.query utc node
  Noted.note (.queried stream query)
  let (answer, source) ← Traced.ofLogged (MetricSource.fetch stream query collector.source)
  return (answer, { collector with source })

/-- Collects from one target: both streams are asked for before anything is handed on. -/
def collectTarget [MetricSource σ] (utc : Nat) (collector : Collector σ μ) (node : Option String) :
    Traced (Collector σ μ) := do
  let (perf, collector) ← collector.ask utc .perf node
  let (insights, collector) ← collector.ask utc .insights node
  let collector := { collector with counters := collector.counters.add (answerCount perf) }
  Noted.noteAll (collector.handle .perf node perf)
  Noted.noteAll (collector.handle .insights node insights)
  return collector

/-- Collects from all targets in their order. -/
def collectAll [MetricSource σ] (utc : Nat) : List (Option String) → Collector σ μ →
    Traced (Collector σ μ)
  | [], collector => pure collector
  | node :: nodes, collector => do
    let collector ← collector.collectTarget utc node
    collectAll utc nodes collector

/-! ## Ticks -/

/-- Brings the list of remote nodes up to date. -/
def refreshNodes [MetricSource σ] [NodeLister μ] (now : Nat) (collector : Collector σ μ) :
    Traced (Collector σ μ) :=
  match collector.registry with
  | none => pure collector
  | some registry =>
    (fun (registry, source) => { collector with registry := some registry, source }) <$>
      registry.refreshIfDue now collector.source

/-- Reports the number of perf records if the window is over. -/
def flushTelemetry (now : Nat) (collector : Collector σ μ) : Traced (Collector σ μ) :=
  let (taken, counters) := collector.counters.takeIfDue now telemetryWindow
  ⟨{ collector with counters }, match taken with
    | none => []
    | some count => [.reported (.metric recordCountMetric (.ofNat count) .empty)]⟩

/-- Lets the source drop what it remembers of nodes that are gone, if it is time. -/
def cleanUp [MetricSource σ] (now : Nat) (collector : Collector σ μ) : Traced (Collector σ μ) :=
  match collector.registry with
  | none => pure collector
  | some registry =>
    if now - collector.cleanedUpAt < cleanupInterval then pure collector
    else
      ⟨{ collector with
          source := MetricSource.pruneNodeCache registry.nodes collector.source
          cleanedUpAt := now }, [.prunedNodeCache registry.nodes]⟩

/-- One tick at a moment. -/
def tick [ConfigurationFetcher φ] [MetricSource σ] [NodeLister μ] (moment : Moment)
    (collector : Collector σ μ) (cache : RoutingCache φ) :
    Traced (Collector σ μ × RoutingCache φ) := do
  let (collector, cache) ←
    if collector.options.looksUpStreams then collector.refreshStreams moment.now cache
    else pure (collector, cache)
  let collector ← collector.refreshNodes moment.now
  let collector ← collectAll moment.utc collector.targets collector
  let collector ← collector.flushTelemetry moment.now
  let collector ← collector.cleanUp moment.now
  return (collector, cache)

/-- The interval until the next tick in microseconds. -/
def interval (collector : Collector σ μ) : Nat := collector.policy.intervalSeconds * 1000000

/-- A collector and its cache are a task: a tick never fails. -/
instance [ConfigurationFetcher φ] [MetricSource σ] [NodeLister μ] :
    PeriodicTask (Collector σ μ × RoutingCache φ) Event where
  name task := task.1.options.name
  interval task := (some task.1.interval, task)
  run moment task := (fun task => (.completed, task)) <$> task.1.tick moment task.2
  log entry := .logged entry

end Collector

end PerfRelay
