import PerfRelay.Proofs.Collection.Concerns

/-!
# Runs of a collector among others

Between two ticks of a collector the world goes on: other collectors ask the fetcher through the
cache that they share, and what the source reads changes.  An occasion is what a tick meets, and a
run is a tick on one occasion after another.

Most parts of a tick leave the list of nodes and the times of upkeep alone; those that do not are
told apart here.

Main results:

- Theorem `NodeRegistry.refreshed`: what bringing the list of nodes up to date can do.
- Theorem `lookUpStreams_leaves`: what the look-up of the streams leaves alone.
- Theorems `lookUpStreams_upkeep` and `collectAll_upkeep`: what leaves the nodes alone.
- Theorem `tick_value`: the parts of a tick lead from the collector before it to the one after.
-/

namespace PerfRelay

/-- What a tick meets. -/
structure Occasion (σ φ : Type) where
  moment : Moment
  /-- The cache, as others leave it. -/
  cache : RoutingCache φ
  /-- What has become of the source in the meantime. -/
  meanwhile : σ → σ

/-! ## Bringing the list of nodes up to date -/

section Registry

variable {σ μ : Type} [MetricSource σ] [NodeLister μ]

/-- The lister after the next listing. -/
def NodeRegistry.nextLister (registry : NodeRegistry μ) : μ :=
  (NodeLister.list registry.lister).value.2

/-- What the next listing answers. -/
def NodeRegistry.nextAnswer (registry : NodeRegistry μ) : Except Failure (List String) :=
  (NodeLister.list registry.lister).value.1

/-- The registry and the source after a listing. -/
inductive NodeRegistry.Refreshed (registry : NodeRegistry μ) (now : Nat) (source : σ) :
    NodeRegistry μ × σ → Prop where
  /-- It is not time. -/
  | waits (hdue : registry.isDue now = false) : Refreshed registry now source (registry, source)
  /-- The nodes are listed, and the source forgets what it knows of nodes. -/
  | succeeds {nodes : List String} (hdue : registry.isDue now = true)
      (hanswer : registry.nextAnswer = .ok nodes) :
      Refreshed registry now source
        (⟨registry.nextLister, nodes, some now⟩, MetricSource.resetNodeCache source)
  /-- The listing fails, and the nodes are kept. -/
  | fails {failure : Failure} (hdue : registry.isDue now = true)
      (hanswer : registry.nextAnswer = .error failure) :
      Refreshed registry now source
        (⟨registry.nextLister, registry.nodes, some now⟩, source)

theorem NodeRegistry.refreshed (registry : NodeRegistry μ) (now : Nat) (source : σ) :
    registry.Refreshed now source (registry.refreshIfDue now source).value := by
  by_cases hdue : registry.isDue now = true
  · rw [refreshIfDue, if_pos hdue]
    cases hanswer : registry.nextAnswer with
    | ok nodes =>
      have hvalue : (registry.refresh now source).value =
          (⟨registry.nextLister, nodes, some now⟩, MetricSource.resetNodeCache source) := by
        rw [nextAnswer] at hanswer
        simp only [refresh, Noted.value_bind, Traced.ofLogged, Noted.value_mapNotes, hanswer]
        rfl
      rw [hvalue]
      exact .succeeds hdue hanswer
    | error failure =>
      have hvalue : (registry.refresh now source).value =
          (⟨registry.nextLister, registry.nodes, some now⟩, source) := by
        rw [nextAnswer] at hanswer
        simp only [refresh, Noted.value_bind, Traced.ofLogged, Noted.value_mapNotes, hanswer]
        rfl
      rw [hvalue]
      exact .fails hdue hanswer
  · rw [Bool.not_eq_true] at hdue
    rw [refreshIfDue_of_not_due hdue]
    exact .waits hdue

end Registry

namespace Collector

variable {σ μ φ : Type}

/-! ## What the parts of a tick leave alone -/

/-- The nodes that a collector knows, and when its source dropped what it knew of other ones. -/
def upkeep (collector : Collector σ μ) : Option (NodeRegistry μ) × Nat :=
  (collector.registry, collector.cleanedUpAt)

/-- Looking up the streams leaves alone what does not depend on the tags, the policy and the time of
the last request. -/
theorem lookUpStreams_leaves [ConfigurationFetcher φ] {α : Type} (part : Collector σ μ → α)
    (hpart : ∀ (collector : Collector σ μ) (policy : Policy) (perfTag insightsTag : String)
      (configRefreshedAt : Nat),
      part { collector with policy, perfTag, insightsTag, configRefreshedAt } = part collector)
    (moment : Moment) (collector : Collector σ μ) (cache : RoutingCache φ) :
    part (collector.lookUpStreams moment cache).value.1 = part collector := by
  have hnoted : ∀ (collector : Collector σ μ) (fromTable : Bool),
      part (collector.noteLookup moment.now fromTable) = part collector := by
    intro collector fromTable
    cases fromTable with
    | false => exact hpart collector _ _ _ moment.now
    | true => rfl
  unfold lookUpStreams
  split
  · let first := (collector.lookUp moment.now .perf cache).value.2.1
    let second := first.lookUp moment.now .insights
      (collector.lookUp moment.now .perf cache).value.2.2
    calc part (collector.refreshStreams moment.now cache).value.1
        = part second.value.2.1 := hpart second.value.2.1 _ _ _ second.value.2.1.configRefreshedAt
      _ = part first := hnoted first _
      _ = part collector := hnoted collector _
  · rfl

/-- Looking up the streams leaves the nodes and the source alone. -/
theorem lookUpStreams_upkeep [ConfigurationFetcher φ] (moment : Moment)
    (collector : Collector σ μ) (cache : RoutingCache φ) :
    (collector.lookUpStreams moment cache).value.1.upkeep = collector.upkeep ∧
      (collector.lookUpStreams moment cache).value.1.source = collector.source :=
  ⟨lookUpStreams_leaves upkeep (fun _ _ _ _ _ => rfl) moment collector cache,
    lookUpStreams_leaves source (fun _ _ _ _ _ => rfl) moment collector cache⟩

/-- Collecting from targets leaves the nodes alone. -/
theorem collectAll_upkeep [MetricSource σ] (utc : Nat) (nodes : List (Option String))
    (collector : Collector σ μ) : (collectAll utc nodes collector).value.upkeep =
      collector.upkeep := by
  induction nodes generalizing collector with
  | nil => rfl
  | cons node nodes ih =>
    rw [collectAll, Noted.value_bind, ih]
    rfl

/-! ## Runs -/

section Runs

variable [ConfigurationFetcher φ] [MetricSource σ] [NodeLister μ]

/-- The collector whose source has seen what happened in the meantime. -/
def meeting (collector : Collector σ μ) (occasion : Occasion σ φ) : Collector σ μ :=
  { collector with source := occasion.meanwhile collector.source }

/-- A tick on an occasion. -/
def tickOn (collector : Collector σ μ) (occasion : Occasion σ φ) : Traced (Collector σ μ) :=
  Prod.fst <$> (collector.meeting occasion).tick occasion.moment occasion.cache

/-- A tick on one occasion after another. -/
def runOn (collector : Collector σ μ) (occasions : List (Occasion σ φ)) : Collector σ μ :=
  occasions.foldl (fun collector occasion => (collector.tickOn occasion).value) collector

@[simp]
theorem runOn_append (collector : Collector σ μ) (occasions : List (Occasion σ φ))
    (occasion : Occasion σ φ) :
    collector.runOn (occasions ++ [occasion]) =
      ((collector.runOn occasions).tickOn occasion).value :=
  List.foldl_append

/-- What is taken down in each tick of a run, one after another. -/
def along {α : Type} (taken : Collector σ μ → Occasion σ φ → List α) :
    Collector σ μ → List (Occasion σ φ) → List α
  | _, [] => []
  | collector, occasion :: occasions =>
    taken collector occasion ++ along taken (collector.tickOn occasion).value occasions

theorem along_append {α : Type} (taken : Collector σ μ → Occasion σ φ → List α)
    (collector : Collector σ μ) (occasions : List (Occasion σ φ)) (occasion : Occasion σ φ) :
    along taken collector (occasions ++ [occasion]) =
      along taken collector occasions ++ taken (collector.runOn occasions) occasion := by
  induction occasions generalizing collector with
  | nil =>
    rw [List.nil_append, along]
    exact List.append_nil _
  | cons first occasions ih =>
    rw [List.cons_append, along, along, ih, List.append_assoc]
    rfl

/-- A tick ends with its clean-up. -/
theorem tick_value (moment : Moment) (collector : Collector σ μ) (cache : RoutingCache φ) :
    (collector.tick moment cache).value.1 = (collector.cleaned moment cache).value := by
  by_cases h : collector.options.looksUpStreams = true
  · simp only [tick, cleaned, flushed, collected, collecting, readied, lookUpStreams, if_pos h,
      Noted.value_bind, Noted.value_pure]
  · simp only [tick, cleaned, flushed, collected, collecting, readied, lookUpStreams, if_neg h,
      Noted.value_bind, Noted.value_pure]

end Runs

end Collector

end PerfRelay
