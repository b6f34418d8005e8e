import PerfRelay.Proofs.Collection.Occasions
import PerfRelay.Proofs.Collection.Output

/-!
# The calls that collaborators receive

The trace of a tick tells which calls a collector makes, but a note is not yet a call.  So the
source and the lister are wrapped here: each of them keeps a record of the calls that reach it, and
answers as before.  A collector cannot tell the difference, so what the records say of a run with
them holds for the run without them.

Main results:

- Theorems `tickOn_forget` and `runRecorded_forget`: a tick and a run are the same with the calls
  recorded.
- Structure `Receives`: what a source and a lister have received between two moments.
-/

namespace PerfRelay

/-- A call of the lister or the source. -/
inductive Call where
  | list
  | reset
  | ask (stream : Stream) (node : Option String)
  | prune (live : List String)
deriving DecidableEq, Repr

namespace Call

/-- Whether a call lists the nodes. -/
def lists : Call → Bool
  | .list => true
  | _ => false

/-- Whether a call lets the source forget nodes that are gone. -/
def prunes : Call → Bool
  | .prune _ => true
  | _ => false

end Call

namespace Event

/-- The upkeep of nodes in an event. -/
def upkeep? : Event → Option Call
  | .listedNodes => some .list
  | .resetNodeCache => some .reset
  | .prunedNodeCache live => some (.prune live)
  | _ => none

/-- The query in an event, as a call. -/
def asked? (event : Event) : Option Call :=
  event.query?.map fun query => .ask query.1 query.2.node

/-- The call of the lister or the source in an event. -/
def call? (event : Event) : Option Call := event.upkeep?.or event.asked?

theorem shows_upkeep? : Shows upkeep? .nodes := by
  intro event hconcern
  cases event with
  | listedNodes => exact absurd rfl hconcern
  | resetNodeCache => exact absurd rfl hconcern
  | prunedNodeCache => exact absurd rfl hconcern
  | _ => rfl

theorem shows_asked? : Shows asked? .targets := by
  intro event hconcern
  rw [asked?, shows_query? event hconcern]
  rfl

end Event

/-! ## Calls and concerns -/

namespace Traced

variable {α : Type} {x : Traced α} {concern : Concern}

theorem seenBy_congr {β : Type} {view view' : Event → Option β}
    (h : ∀ event ∈ x.notes, view event = view' event) : x.seenBy view = x.seenBy view' :=
  List.filterMap_congr h

/-- The calls of a computation about nodes are upkeep. -/
theorem Minds.calls_nodes (h : x.Minds .nodes) : x.seenBy Event.call? = x.seenBy Event.upkeep? := by
  apply seenBy_congr
  intro event hevent
  have hnone : event.asked? = none := by
    apply Event.shows_asked?
    intro hconcern
    cases h event hevent _ hconcern
  rw [Event.call?, hnone, Option.or_none]

/-- The calls of a computation about targets are queries. -/
theorem Minds.calls_targets (h : x.Minds .targets) :
    x.seenBy Event.call? = x.seenBy Event.asked? := by
  apply seenBy_congr
  intro event hevent
  have hnone : event.upkeep? = none := by
    apply Event.shows_upkeep?
    intro hconcern
    cases h event hevent _ hconcern
  rw [Event.call?, hnone, Option.none_or]

/-- Nothing else makes calls. -/
theorem Minds.calls_eq_nil (h : x.Minds concern) (hnodes : concern ≠ .nodes)
    (htargets : concern ≠ .targets) : x.seenBy Event.call? = [] := by
  have hcalls : x.seenBy Event.call? = x.seenBy Event.asked? := by
    apply seenBy_congr
    intro event hevent
    have hnone : event.upkeep? = none := by
      apply Event.shows_upkeep?
      intro hconcern
      exact hnodes (h event hevent _ hconcern).symm
    rw [Event.call?, hnone, Option.none_or]
  rw [hcalls]
  exact h.seenBy_eq_nil Event.shows_asked? htargets

end Traced

/-! ## Records of calls -/

/-- A source or a lister with the calls that it has received, the first one first. -/
structure Recording (γ : Type) where
  inner : γ
  calls : List Call

namespace Recording

variable {σ μ γ : Type}

/-- One that has not been called. -/
def start (inner : γ) : Recording γ := ⟨inner, []⟩

instance [MetricSource σ] : MetricSource (Recording σ) where
  fetch stream query source :=
    (fun (answer, inner) => (answer, ⟨inner, source.calls ++ [.ask stream query.node]⟩)) <$>
      MetricSource.fetch stream query source.inner
  resetNodeCache source := ⟨MetricSource.resetNodeCache source.inner, source.calls ++ [.reset]⟩
  pruneNodeCache live source :=
    ⟨MetricSource.pruneNodeCache live source.inner, source.calls ++ [.prune live]⟩

instance [NodeLister μ] : NodeLister (Recording μ) where
  list lister :=
    (fun (answer, inner) => (answer, ⟨inner, lister.calls ++ [.list]⟩)) <$>
      NodeLister.list lister.inner

end Recording

/-- The same occasion for a source with a record, to which nobody else adds. -/
def Occasion.recorded {σ φ : Type} (occasion : Occasion σ φ) : Occasion (Recording σ) φ where
  moment := occasion.moment
  cache := occasion.cache
  meanwhile source := ⟨occasion.meanwhile source.inner, source.calls⟩

/-! ## The same without the records -/

/-- One computation is another one with something forgotten of its value. -/
structure Traced.Forgets {α β : Type} (f : α → β) (x : Traced α) (y : Traced β) : Prop where
  value_eq : y.value = f x.value
  notes_eq : y.notes = x.notes

namespace Traced.Forgets

variable {α β γ δ : Type} {f : α → β} {g : γ → δ}

theorem pure (a : α) : Forgets f (Pure.pure a) (Pure.pure (f a)) := ⟨rfl, rfl⟩

theorem noteAll {events events' : List Event} (h : events' = events) :
    Forgets id (Noted.noteAll events) (Noted.noteAll events') := ⟨rfl, h⟩

theorem refl (x : Traced α) : Forgets id x x := ⟨rfl, rfl⟩

theorem bind {x : Traced α} {y : Traced β} (h : Forgets f x y) {k : α → Traced γ}
    {l : β → Traced δ} (hk : Forgets g (k x.value) (l (f x.value))) :
    Forgets g (x >>= k) (y >>= l) := by
  constructor
  · rw [Noted.value_bind, Noted.value_bind, h.value_eq, hk.value_eq]
  · rw [Noted.notes_bind, Noted.notes_bind, h.value_eq, h.notes_eq, hk.notes_eq]

/-- What is wrapped and unwrapped again is forgotten. -/
theorem ofLogged {x : Noted Entry β} {k : β → α} (h : f (k x.value) = x.value) :
    Forgets f (Traced.ofLogged (k <$> x)) (Traced.ofLogged x) := by
  constructor
  · rw [Traced.ofLogged, Traced.ofLogged, Noted.value_mapNotes, Noted.value_mapNotes,
      Noted.value_map, h]
  · rw [Traced.ofLogged, Traced.ofLogged, Noted.notes_mapNotes, Noted.notes_mapNotes,
      Noted.notes_map]

theorem map {x : Traced α} {y : Traced β} (h : Forgets f x y) {k : α → γ} {l : β → δ}
    (hk : l (f x.value) = g (k x.value)) : Forgets g (k <$> x) (l <$> y) := by
  constructor
  · rw [Noted.value_map, Noted.value_map, h.value_eq, hk]
  · rw [Noted.notes_map, Noted.notes_map, h.notes_eq]

end Traced.Forgets

section Registry

variable {σ μ : Type}

/-- The registry without the record of its lister. -/
def NodeRegistry.forget (registry : NodeRegistry (Recording μ)) : NodeRegistry μ :=
  ⟨registry.lister.inner, registry.nodes, registry.refreshedAt⟩

/-- What a registry and a source are without their records. -/
def NodeRegistry.forgetBoth (both : NodeRegistry (Recording μ) × Recording σ) :
    NodeRegistry μ × σ :=
  (both.1.forget, both.2.inner)

theorem NodeRegistry.refreshIfDue_forget [MetricSource σ] [NodeLister μ]
    (registry : NodeRegistry (Recording μ)) (now : Nat) (source : Recording σ) :
    Traced.Forgets forgetBoth (registry.refreshIfDue now source)
      (registry.forget.refreshIfDue now source.inner) := by
  have hdue : registry.forget.isDue now = registry.isDue now := rfl
  rw [refreshIfDue, refreshIfDue, hdue]
  split
  · have hlist : Traced.Forgets
        (fun answer : Except Failure (List String) × Recording μ => (answer.1, answer.2.inner))
        (Traced.ofLogged (NodeLister.list registry.lister))
        (Traced.ofLogged (NodeLister.list registry.forget.lister)) := .ofLogged rfl
    refine (Traced.Forgets.refl _).bind (hlist.bind ?_)
    generalize (Traced.ofLogged (NodeLister.list registry.lister)).value = answered
    obtain ⟨answer, lister⟩ := answered
    cases answer with
    | ok nodes => exact (Traced.Forgets.refl _).bind ((Traced.Forgets.refl _).bind (.pure _))
    | error failure => exact (Traced.Forgets.refl _).bind (.pure _)
  · exact .pure _

end Registry

namespace Collector

variable {σ μ φ : Type}

/-- The collector without the records of its source and its lister. -/
def forget (collector : Collector (Recording σ) (Recording μ)) : Collector σ μ where
  options := collector.options
  source := collector.source.inner
  registry := collector.registry.map NodeRegistry.forget
  policy := collector.policy
  perfTag := collector.perfTag
  insightsTag := collector.insightsTag
  configRefreshedAt := collector.configRefreshedAt
  counters := collector.counters
  cleanedUpAt := collector.cleanedUpAt

/-- What stands beside a collector is kept. -/
def forgetIn {α : Type} (both : α × Collector (Recording σ) (Recording μ)) : α × Collector σ μ :=
  (both.1, both.2.forget)

/-- What a collector and a cache are without the records. -/
def forgetWith (both : Collector (Recording σ) (Recording μ) × RoutingCache φ) :
    Collector σ μ × RoutingCache φ :=
  (both.1.forget, both.2)

theorem isRemote_forget (collector : Collector (Recording σ) (Recording μ)) :
    collector.forget.isRemote = collector.isRemote :=
  Option.isSome_map

theorem targets_forget (collector : Collector (Recording σ) (Recording μ)) :
    collector.forget.targets = collector.targets := by
  rw [targets, targets, forget]
  cases collector.registry with
  | none => rfl
  | some registry => rfl

theorem tag_forget (collector : Collector (Recording σ) (Recording μ)) :
    collector.forget.tag = collector.tag := by
  funext stream
  cases stream with
  | perf => rfl
  | insights => rfl

theorem handle_forget (collector : Collector (Recording σ) (Recording μ)) (stream : Stream)
    (node : Option String) (answer : Except Failure (List Record)) :
    collector.forget.handle stream node answer = collector.handle stream node answer := by
  cases answer with
  | error failure => rfl
  | ok records =>
    rw [handle, handle, deliver, deliver, secondTag?, secondTag?, successNotes, successNotes,
      tag_forget, isRemote_forget]
    rfl

theorem flushTelemetry_forget (collector : Collector (Recording σ) (Recording μ)) (now : Nat) :
    Traced.Forgets forget (collector.flushTelemetry now) (collector.forget.flushTelemetry now) :=
  ⟨rfl, rfl⟩

section LookUps

variable [ConfigurationFetcher φ]

theorem noteLookup_forget (collector : Collector (Recording σ) (Recording μ)) (now : Nat)
    (fromTable : Bool) :
    collector.forget.noteLookup now fromTable = (collector.noteLookup now fromTable).forget := by
  cases fromTable with
  | false => rfl
  | true => rfl

theorem lookUp_forget (collector : Collector (Recording σ) (Recording μ)) (now : Nat)
    (stream : Stream) (cache : RoutingCache φ) :
    Traced.Forgets
      (fun found : RoutingCache.Resolution × Collector (Recording σ) (Recording μ) ×
        RoutingCache φ => (found.1, forgetWith found.2))
      (collector.lookUp now stream cache) (collector.forget.lookUp now stream cache) := by
  have hage : collector.forget.configRefreshedAt = collector.configRefreshedAt := rfl
  rw [lookUp, lookUp, tag_forget, hage]
  refine (Traced.Forgets.refl _).map ?_
  simp only [noteLookup_forget]
  rfl

theorem refreshStreams_forget (collector : Collector (Recording σ) (Recording μ)) (now : Nat)
    (cache : RoutingCache φ) :
    Traced.Forgets forgetWith (collector.refreshStreams now cache)
      (collector.forget.refreshStreams now cache) := by
  refine (collector.lookUp_forget now .perf cache).bind ?_
  generalize (collector.lookUp now .perf cache).value = first
  obtain ⟨perf, first, cache⟩ := first
  refine (first.lookUp_forget now .insights cache).bind ?_
  generalize (first.lookUp now .insights cache).value = second
  obtain ⟨insights, second, cache⟩ := second
  refine (Traced.Forgets.refl _).bind ?_
  refine (Traced.Forgets.refl _).bind ?_
  exact .pure _

end LookUps

section Targets

variable [MetricSource σ]

theorem ask_forget (collector : Collector (Recording σ) (Recording μ)) (utc : Nat)
    (stream : Stream) (node : Option String) :
    Traced.Forgets forgetIn (collector.ask utc stream node)
      (collector.forget.ask utc stream node) := by
  have hfetch : Traced.Forgets
      (fun answer : Except Failure (List Record) × Recording σ => (answer.1, answer.2.inner))
      (Traced.ofLogged (MetricSource.fetch stream (collector.query utc node) collector.source))
      (Traced.ofLogged (MetricSource.fetch stream (collector.query utc node)
        collector.source.inner)) := .ofLogged rfl
  exact (Traced.Forgets.refl _).bind (hfetch.bind (.pure _))

theorem collectTarget_forget (utc : Nat) (collector : Collector (Recording σ) (Recording μ))
    (node : Option String) :
    Traced.Forgets forget (collector.collectTarget utc node)
      (collector.forget.collectTarget utc node) := by
  refine (collector.ask_forget utc .perf node).bind ?_
  generalize (collector.ask utc .perf node).value = first
  obtain ⟨perf, first⟩ := first
  refine (first.ask_forget utc .insights node).bind ?_
  generalize (first.ask utc .insights node).value = second
  obtain ⟨insights, second⟩ := second
  let counted := { second with counters := second.counters.add (answerCount perf) }
  refine (Traced.Forgets.noteAll (handle_forget counted .perf node perf)).bind ?_
  refine (Traced.Forgets.noteAll (handle_forget counted .insights node insights)).bind ?_
  exact .pure counted

theorem collectAll_forget (utc : Nat) (nodes : List (Option String))
    (collector : Collector (Recording σ) (Recording μ)) :
    Traced.Forgets forget (collectAll utc nodes collector)
      (collectAll utc nodes collector.forget) := by
  induction nodes generalizing collector with
  | nil => exact .pure collector
  | cons node nodes ih => exact (collectTarget_forget utc collector node).bind (ih _)

theorem cleanUp_forget (collector : Collector (Recording σ) (Recording μ)) (now : Nat) :
    Traced.Forgets forget (collector.cleanUp now) (collector.forget.cleanUp now) := by
  have hregistry : collector.forget.registry = collector.registry.map NodeRegistry.forget := rfl
  rw [cleanUp, cleanUp, hregistry]
  cases collector.registry with
  | none => exact .pure collector
  | some registry =>
    have htime : collector.forget.cleanedUpAt = collector.cleanedUpAt := rfl
    simp only [Option.map_some, htime]
    split
    · exact .pure collector
    · exact ⟨rfl, rfl⟩

theorem refreshNodes_forget [NodeLister μ] (collector : Collector (Recording σ) (Recording μ))
    (now : Nat) :
    Traced.Forgets forget (collector.refreshNodes now) (collector.forget.refreshNodes now) := by
  have hregistry : collector.forget.registry = collector.registry.map NodeRegistry.forget := rfl
  rw [refreshNodes, refreshNodes, hregistry]
  cases collector.registry with
  | none => exact .pure collector
  | some registry => exact (registry.refreshIfDue_forget now collector.source).map rfl

/-- What a tick does after it has looked up the streams. -/
def goOn [NodeLister μ] (moment : Moment)
    (found : Collector σ μ × RoutingCache φ) : Traced (Collector σ μ × RoutingCache φ) := do
  let collector ← found.1.refreshNodes moment.now
  let collector ← collectAll moment.utc collector.targets collector
  let collector ← collector.flushTelemetry moment.now
  let collector ← collector.cleanUp moment.now
  return (collector, found.2)

theorem goOn_forget [NodeLister μ] (moment : Moment)
    (found : Collector (Recording σ) (Recording μ) × RoutingCache φ) :
    Traced.Forgets forgetWith (goOn moment found) (goOn moment (forgetWith found)) := by
  refine (found.1.refreshNodes_forget moment.now).bind ?_
  rw [targets_forget]
  refine (collectAll_forget moment.utc _ _).bind ?_
  refine (flushTelemetry_forget _ moment.now).bind ?_
  exact (cleanUp_forget _ moment.now).bind (.pure _)

end Targets

section Runs

variable [ConfigurationFetcher φ] [MetricSource σ] [NodeLister μ]

theorem tick_eq_goOn (moment : Moment) (collector : Collector σ μ) (cache : RoutingCache φ) :
    collector.tick moment cache = collector.lookUpStreams moment cache >>= goOn moment := by
  rw [tick, lookUpStreams]
  split
  · rfl
  · rfl

theorem tick_forget (moment : Moment) (collector : Collector (Recording σ) (Recording μ))
    (cache : RoutingCache φ) :
    Traced.Forgets forgetWith (collector.tick moment cache)
      (collector.forget.tick moment cache) := by
  have hlookUp : Traced.Forgets forgetWith (collector.lookUpStreams moment cache)
      (collector.forget.lookUpStreams moment cache) := by
    have hoptions : collector.forget.options = collector.options := rfl
    rw [lookUpStreams, lookUpStreams, hoptions]
    split
    · exact collector.refreshStreams_forget moment.now cache
    · exact .pure (collector, cache)
  rw [tick_eq_goOn, tick_eq_goOn]
  exact hlookUp.bind (goOn_forget moment _)

/-- A tick is the same with the calls recorded. -/
theorem tickOn_forget (collector : Collector (Recording σ) (Recording μ))
    (occasion : Occasion σ φ) :
    Traced.Forgets forget (collector.tickOn occasion.recorded)
      (collector.forget.tickOn occasion) :=
  (tick_forget occasion.moment (collector.meeting occasion.recorded) occasion.cache).map rfl

/-- A new collector whose source and lister keep a record. -/
def startRecorded (options : CollectorOptions) (source : σ) (lister : Option μ) (startedAt : Nat) :
    Collector (Recording σ) (Recording μ) :=
  start options (.start source) (lister.map .start) startedAt

/-- A run of a collector whose source and lister keep a record. -/
def runRecorded (options : CollectorOptions) (source : σ) (lister : Option μ) (startedAt : Nat)
    (occasions : List (Occasion σ φ)) : Collector (Recording σ) (Recording μ) :=
  (startRecorded options source lister startedAt).runOn (occasions.map .recorded)

theorem runRecorded_append (options : CollectorOptions) (source : σ) (lister : Option μ)
    (startedAt : Nat) (occasions : List (Occasion σ φ)) (occasion : Occasion σ φ) :
    runRecorded options source lister startedAt (occasions ++ [occasion]) =
      ((runRecorded options source lister startedAt occasions).tickOn occasion.recorded).value := by
  rw [runRecorded, List.map_append, List.map_singleton, runOn_append]
  rfl

/-- A run is the same with the calls recorded. -/
theorem runRecorded_forget (options : CollectorOptions) (source : σ) (lister : Option μ)
    (startedAt : Nat) (occasions : List (Occasion σ φ)) :
    (runRecorded options source lister startedAt occasions).forget =
      (start options source lister startedAt).runOn occasions := by
  induction occasions using List.reverseRecOn with
  | nil =>
    cases lister with
    | none => rfl
    | some lister => rfl
  | append_singleton occasions occasion ih =>
    rw [runOn_append, ← ih, (tickOn_forget _ occasion).value_eq, runRecorded_append]

end Runs

/-! ## What is received -/

/-- The calls that the lister of a collector has received. -/
def listings (collector : Collector σ (Recording μ)) : List Call :=
  match collector.registry with
  | none => []
  | some registry => registry.lister.calls

/-- Between two moments the source and the lister of a collector have received these calls, each of
them its own ones in their order. -/
structure Receives (before : Collector (Recording σ) (Recording μ)) (calls : List Call)
    (after : Collector (Recording σ) (Recording μ)) : Prop where
  source_calls : after.source.calls = before.source.calls ++ calls.filter fun call => !call.lists
  lister_calls : after.listings = before.listings ++ calls.filter Call.lists

namespace Receives

variable {before middle after : Collector (Recording σ) (Recording μ)} {calls more : List Call}

/-- Nothing is received where source and lister are left alone. -/
theorem none (hsource : after.source.calls = before.source.calls)
    (hregistry : after.registry = before.registry) : Receives before [] after where
  source_calls := by rw [hsource, List.filter_nil, List.append_nil]
  lister_calls := by rw [listings, listings, hregistry, List.filter_nil, List.append_nil]

theorem trans (h : Receives before calls middle) (h' : Receives middle more after) :
    Receives before (calls ++ more) after where
  source_calls := by
    rw [h'.source_calls, h.source_calls, List.filter_append, List.append_assoc]
  lister_calls := by
    rw [h'.lister_calls, h.lister_calls, List.filter_append, List.append_assoc]

end Receives

end Collector

end PerfRelay
