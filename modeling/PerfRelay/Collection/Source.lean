import PerfRelay.Collection.Event

/-!
# Collaborators of a collection

What a collector needs from outside: a source of records, and for remote nodes something that lists
them.
-/

namespace PerfRelay

/-- A source of records, which may remember things about nodes. -/
class MetricSource (σ : Type) where
  /-- Gets the records that a query asks for. -/
  fetch : Stream → Query → σ → Noted Entry (Except Failure (List Record) × σ)
  /-- Drops what is remembered of remote nodes, after the nodes were listed anew. -/
  resetNodeCache : σ → σ
  /-- Drops what is remembered of all remote nodes but the live ones. -/
  pruneNodeCache : List String → σ → σ

/-- Something that lists the remote nodes. -/
class NodeLister (μ : Type) where
  list : μ → Noted Entry (Except Failure (List String) × μ)

end PerfRelay
