import PerfRelay.Collection.Source

/-!
# The registry of remote nodes

The remote nodes are listed anew after some time.  A listing that fails counts as well, and keeps
the nodes that are known.  After one that succeeds the source forgets what it remembers of nodes,
before the new nodes are used.

Times are numbers of microseconds, and a time before an earlier listing counts as that moment.

Main results:

- Theorem `refreshIfDue_of_not_due`: between listings nothing happens.
-/

namespace PerfRelay

/-- How long the nodes are known, in microseconds. -/
def nodeLifetime : Nat := 300 * 1000000

/-- The remote nodes and what lists them. -/
structure NodeRegistry (μ : Type) where
  lister : μ
  nodes : List String
  /-- When they were listed last. -/
  refreshedAt : Option Nat
deriving Repr

namespace NodeRegistry

variable {μ : Type}

/-- A registry that knows no nodes. -/
def start (lister : μ) : NodeRegistry μ := ⟨lister, [], none⟩

/-- Whether the nodes are to be listed. -/
def isDue (registry : NodeRegistry μ) (now : Nat) : Bool :=
  registry.refreshedAt.all fun earlier => nodeLifetime ≤ now - earlier

variable {σ : Type} [NodeLister μ] [MetricSource σ]

/-- Lists the nodes anew. -/
def refresh (registry : NodeRegistry μ) (now : Nat) (source : σ) :
    Traced (NodeRegistry μ × σ) := do
  Noted.note .listedNodes
  let (result, lister) ← Traced.ofLogged (NodeLister.list registry.lister)
  let registry := { registry with lister, refreshedAt := some now }
  match result with
  | .ok nodes => do
    Traced.log (.info s!"refreshed node list: {nodes.length} nodes")
    Noted.note .resetNodeCache
    return ({ registry with nodes }, MetricSource.resetNodeCache source)
  | .error failure => do
    Traced.log (.warn (s!"failed to list nodes, keeping {registry.nodes.length} known nodes: " ++
      failure.message))
    return (registry, source)

/-- Lists the nodes anew if it is time. -/
def refreshIfDue (registry : NodeRegistry μ) (now : Nat) (source : σ) :
    Traced (NodeRegistry μ × σ) :=
  if registry.isDue now then registry.refresh now source else pure (registry, source)

theorem refreshIfDue_of_not_due {registry : NodeRegistry μ} {now : Nat} {source : σ}
    (h : registry.isDue now = false) :
    registry.refreshIfDue now source = pure (registry, source) := by
  simp [refreshIfDue, h]

end NodeRegistry

end PerfRelay
