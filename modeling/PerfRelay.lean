import PerfRelay.Agent.Client
import PerfRelay.Collection.Collector
import PerfRelay.Configuration.ContainerLogs
import PerfRelay.Json.Document
import PerfRelay.Json.Printer
import PerfRelay.Runner.Thread
import PerfRelay.Sink.Console
import PerfRelay.Spool.NodeList
import PerfRelay.Spool.Source
import PerfRelay.Telemetry.Log
import PerfRelay.MessagePack.Steady
import PerfRelay.Proofs.Agent.Replies
import PerfRelay.Proofs.Collection.Fleet
import PerfRelay.Proofs.Collection.NodeCalls
import PerfRelay.Proofs.Collection.Outage
import PerfRelay.Proofs.Collection.Output
import PerfRelay.Proofs.Collection.PolicyFields
import PerfRelay.Proofs.Collection.PolicyFollows
import PerfRelay.Proofs.Collection.RecordCounts
import PerfRelay.Proofs.Collection.Staleness
import PerfRelay.Proofs.Configuration.LogRoutes
import PerfRelay.Proofs.Configuration.NonStrings
import PerfRelay.Proofs.Configuration.Respelling
import PerfRelay.Proofs.Envelope.Chunks
import PerfRelay.Proofs.Envelope.Framing
import PerfRelay.Proofs.Envelope.UnknownFields
import PerfRelay.Proofs.Policy.Interval
import PerfRelay.Proofs.Routing.Sharing
import PerfRelay.Proofs.Routing.Sources
import PerfRelay.Proofs.Runner.Cadence
import PerfRelay.Proofs.Runner.Shutdown
import PerfRelay.Proofs.Sink.Console
import PerfRelay.Proofs.Spool.Bookkeeping
import PerfRelay.Proofs.Spool.NamespaceFilter
import PerfRelay.Proofs.Spool.NodeList
import PerfRelay.Proofs.Spool.Snapshots
