import PerfRelay.Collection.Collector

/-!
# The parts of a tick and their events

A tick looks up streams, lists nodes, collects from targets, reports a count and cleans up, one
after another.  Every event but a log entry is the concern of one of these parts, so what a tick
does about one concern can be read off the parts that have it.

Main results:

- Theorem `tick_notes`: the events of a tick are those of its parts.
- Theorem `tick_shows`: what a tick does about one concern, and theorems `tick_lookUp`,
  `tick_targets` and `tick_telemetry` for those that one part has.
-/

namespace PerfRelay

/-- What an event is about. -/
inductive Concern where
  | lookUp
  | nodes
  | targets
  | telemetry
deriving DecidableEq, Repr

/-- What an event is about; log entries are about nothing. -/
def Event.concern? : Event → Option Concern
  | .logged _ => none
  | .fetchedConfigurations => some .lookUp
  | .listedNodes => some .nodes
  | .resetNodeCache => some .nodes
  | .prunedNodeCache _ => some .nodes
  | .queried _ _ => some .targets
  | .emitted _ _ => some .targets
  | .reported (.exception _) => some .targets
  | .reported (.metric _ _ _) => some .telemetry

/-- A view shows nothing but events about one concern. -/
def Shows {α : Type} (view : Event → Option α) (concern : Concern) : Prop :=
  ∀ event, event.concern? ≠ some concern → view event = none

theorem Shows.logged {α : Type} {view : Event → Option α} {concern : Concern}
    (h : Shows view concern) (entry : Entry) : view (.logged entry) = none :=
  h _ nofun

theorem Shows.of_logged {α : Type} {view : Event → Option α} {concern : Concern}
    (h : Shows view concern) (entries : List Entry) :
    (entries.map Event.logged).filterMap view = [] := by
  rw [List.filterMap_eq_nil_iff]
  intro event hevent
  obtain ⟨entry, -, rfl⟩ := List.mem_map.1 hevent
  exact h.logged entry

/-! ## Computations with one concern -/

namespace Traced

variable {α β : Type}

/-- What a computation does is about one concern. -/
def Minds (x : Traced α) (concern : Concern) : Prop :=
  ∀ event ∈ x.notes, ∀ other, event.concern? = some other → other = concern

/-- What a view shows of the events of a computation. -/
def seenBy (x : Traced α) (view : Event → Option β) : List β := x.notes.filterMap view

variable {concern other : Concern}

theorem minds_pure (a : α) : Minds (pure a) concern :=
  fun _ h => nomatch h

theorem Minds.bind {x : Traced α} {f : α → Traced β} (hx : x.Minds concern)
    (hf : (f x.value).Minds concern) : Minds (x >>= f) concern := by
  intro event hevent
  rw [Noted.notes_bind, List.mem_append] at hevent
  rcases hevent with hevent | hevent
  · exact hx event hevent
  · exact hf event hevent

theorem Minds.map {x : Traced α} (hx : x.Minds concern) (f : α → β) :
    Minds (f <$> x) concern := by
  intro event hevent
  rw [Noted.notes_map] at hevent
  exact hx event hevent

theorem minds_note {event : Event} (h : event.concern? = some concern) :
    Minds (.note event) concern := by
  intro found hfound other hother
  rw [Noted.notes_note, List.mem_singleton] at hfound
  rw [hfound, h, Option.some.injEq] at hother
  exact hother.symm

theorem minds_noteAll {events : List Event}
    (h : ∀ event ∈ events, ∀ other, event.concern? = some other → other = concern) :
    Minds (.noteAll events) concern :=
  h

theorem minds_logAll (entries : List Entry) : Minds (logAll entries) concern := by
  intro event hevent other hother
  obtain ⟨entry, -, rfl⟩ := List.mem_map.1 hevent
  cases hother

theorem minds_log (entry : Entry) : Minds (log entry) concern :=
  minds_logAll [entry]

theorem minds_ofLogged (x : Noted Entry α) : Minds (ofLogged x) concern :=
  minds_logAll x.notes

/-- A view of one concern shows nothing of a computation with another one. -/
theorem Minds.seenBy_eq_nil {x : Traced α} (hx : x.Minds other) {view : Event → Option β}
    (hview : Shows view concern) (hne : other ≠ concern) : x.seenBy view = [] := by
  rw [Traced.seenBy, List.filterMap_eq_nil_iff]
  intro event hevent
  apply hview
  intro hconcern
  exact hne (hx event hevent concern hconcern).symm

theorem Minds.seenBy_eq_ite {x : Traced α} (hx : x.Minds other) {view : Event → Option β}
    (hview : Shows view concern) :
    x.seenBy view = if concern = other then x.seenBy view else [] := by
  split
  · rfl
  · rename_i hne
    exact hx.seenBy_eq_nil hview fun heq => hne heq.symm

@[simp]
theorem seenBy_pure (a : α) (view : Event → Option β) : Traced.seenBy (pure a) view = [] :=
  rfl

@[simp]
theorem seenBy_bind {γ : Type} (x : Traced α) (f : α → Traced β) (view : Event → Option γ) :
    Traced.seenBy (x >>= f) view = x.seenBy view ++ (f x.value).seenBy view := by
  rw [Traced.seenBy, Noted.notes_bind, List.filterMap_append]
  rfl

@[simp]
theorem seenBy_map {γ : Type} (f : α → β) (x : Traced α) (view : Event → Option γ) :
    Traced.seenBy (f <$> x) view = x.seenBy view := by
  rw [Traced.seenBy, Noted.notes_map]
  rfl

theorem seenBy_note (event : Event) (view : Event → Option β) :
    Traced.seenBy (.note event) view = (view event).toList := by
  rw [Traced.seenBy, Noted.notes_note]
  cases h : view event <;> simp [h]

theorem seenBy_logAll {view : Event → Option β} (hview : Shows view concern)
    (entries : List Entry) : (logAll entries).seenBy view = [] :=
  hview.of_logged entries

theorem seenBy_ofLogged {view : Event → Option β} (hview : Shows view concern)
    (x : Noted Entry α) : (ofLogged x).seenBy view = [] :=
  hview.of_logged x.notes

end Traced

/-! ## The parts of a tick -/

section Cache

variable {φ : Type} [ConfigurationFetcher φ]

theorem RoutingCache.minds_refetch (cache : RoutingCache φ) : cache.refetch.Minds .lookUp := by
  refine (Traced.minds_note rfl).bind ?_
  refine (Traced.minds_ofLogged _).bind ?_
  exact (Traced.minds_logAll _).bind (Traced.minds_pure _)

theorem RoutingCache.minds_resolve (cache : RoutingCache φ) (dataType : String)
    (useTable : Bool) : (cache.resolve dataType useTable).Minds .lookUp := by
  unfold resolve
  split
  · exact Traced.minds_pure _
  · refine cache.minds_refetch.bind ?_
    exact (Traced.minds_log _).bind (Traced.minds_pure _)

theorem RoutingCache.minds_outputStream (cache : RoutingCache φ) (dataType tag : String)
    (age : Nat) : (cache.outputStream dataType tag age).Minds .lookUp := by
  simp only [outputStream]
  split
  · exact Traced.minds_pure _
  · exact (cache.minds_resolve dataType _).map _

end Cache

theorem NodeRegistry.minds_refreshIfDue {σ μ : Type} [MetricSource σ] [NodeLister μ]
    (registry : NodeRegistry μ) (now : Nat) (source : σ) :
    (registry.refreshIfDue now source).Minds .nodes := by
  unfold refreshIfDue
  split
  · refine (Traced.minds_note rfl).bind ?_
    refine (Traced.minds_ofLogged _).bind ?_
    simp only
    split
    · refine (Traced.minds_log _).bind ?_
      exact (Traced.minds_note rfl).bind (Traced.minds_pure _)
    · exact (Traced.minds_log _).bind (Traced.minds_pure _)
  · exact Traced.minds_pure _

namespace Collector

variable {σ μ φ : Type}

theorem minds_refreshStreams [ConfigurationFetcher φ] (collector : Collector σ μ) (now : Nat)
    (cache : RoutingCache φ) : (collector.refreshStreams now cache).Minds .lookUp := by
  unfold refreshStreams
  refine Traced.Minds.bind ((RoutingCache.minds_outputStream _ _ _ _).map _) ?_
  refine Traced.Minds.bind ((RoutingCache.minds_outputStream _ _ _ _).map _) ?_
  refine (Traced.minds_logAll _).bind ?_
  exact (Traced.minds_logAll _).bind (Traced.minds_pure _)

/-- The part of a tick that looks up streams. -/
def lookUpStreams [ConfigurationFetcher φ] (moment : Moment) (collector : Collector σ μ)
    (cache : RoutingCache φ) : Traced (Collector σ μ × RoutingCache φ) :=
  if collector.options.looksUpStreams then collector.refreshStreams moment.now cache
  else pure (collector, cache)

theorem minds_lookUpStreams [ConfigurationFetcher φ] (moment : Moment) (collector : Collector σ μ)
    (cache : RoutingCache φ) : (collector.lookUpStreams moment cache).Minds .lookUp := by
  unfold lookUpStreams
  split
  · exact minds_refreshStreams _ _ _
  · exact Traced.minds_pure _

section Source

variable [MetricSource σ]

theorem minds_refreshNodes [NodeLister μ] (collector : Collector σ μ) (now : Nat) :
    (collector.refreshNodes now).Minds .nodes := by
  unfold refreshNodes
  split
  · exact Traced.minds_pure _
  · exact (NodeRegistry.minds_refreshIfDue _ _ _).map _

theorem minds_ask (collector : Collector σ μ) (utc : Nat) (stream : Stream)
    (node : Option String) : (collector.ask utc stream node).Minds .targets := by
  refine (Traced.minds_note rfl).bind ?_
  exact (Traced.minds_ofLogged _).bind (Traced.minds_pure _)

omit [MetricSource σ] in
theorem minds_handle (collector : Collector σ μ) (stream : Stream)
    (node : Option String) (answer : Except Failure (List Record)) :
    Traced.Minds (.noteAll (collector.handle stream node answer)) .targets := by
  apply Traced.minds_noteAll
  intro event hevent other hother
  cases answer with
  | error failure =>
    simp only [handle, reportFailure, List.mem_cons, List.not_mem_nil, or_false] at hevent
    rcases hevent with rfl | rfl
    · cases hother
    · exact (Option.some.inj hother).symm
  | ok records =>
    simp only [handle, deliver, successNotes] at hevent
    split at hevent
    · cases hevent
    · split at hevent
      · rw [List.mem_singleton] at hevent
        subst hevent
        cases hother
      · rcases List.mem_append.1 hevent with hbatch | hnote
        · obtain ⟨tag, -, rfl⟩ := List.mem_map.1 hbatch
          exact (Option.some.inj hother).symm
        · split at hnote
          · rw [List.mem_singleton] at hnote
            subst hnote
            cases hother
          · cases hnote

theorem minds_collectTarget (collector : Collector σ μ) (utc : Nat) (node : Option String) :
    (collector.collectTarget utc node).Minds .targets := by
  refine (minds_ask _ _ _ _).bind ?_
  refine (minds_ask _ _ _ _).bind ?_
  refine Traced.Minds.bind (minds_handle _ _ _ _) ?_
  exact Traced.Minds.bind (minds_handle _ _ _ _) (Traced.minds_pure _)

theorem minds_collectAll (utc : Nat) (nodes : List (Option String)) (collector : Collector σ μ) :
    (collectAll utc nodes collector).Minds .targets := by
  induction nodes generalizing collector with
  | nil => exact Traced.minds_pure _
  | cons node nodes ih => exact (collector.minds_collectTarget utc node).bind (ih _)

omit [MetricSource σ] in
theorem minds_flushTelemetry (collector : Collector σ μ) (now : Nat) :
    (collector.flushTelemetry now).Minds .telemetry := by
  intro event hevent other hother
  simp only [flushTelemetry] at hevent
  split at hevent
  · cases hevent
  · rw [List.mem_singleton] at hevent
    subst hevent
    exact (Option.some.inj hother).symm

theorem minds_cleanUp (collector : Collector σ μ) (now : Nat) :
    (collector.cleanUp now).Minds .nodes := by
  unfold cleanUp
  split
  · exact Traced.minds_pure _
  · split
    · exact Traced.minds_pure _
    · exact Traced.minds_note rfl

end Source

/-! ## A whole tick -/

section Tick

variable [ConfigurationFetcher φ] [MetricSource σ] [NodeLister μ]

/-- The collector that looked up its streams and brings its list of nodes up to date. -/
def readied (moment : Moment) (collector : Collector σ μ) (cache : RoutingCache φ) :
    Traced (Collector σ μ) :=
  (collector.lookUpStreams moment cache).value.1.refreshNodes moment.now

/-- The collector with which a tick collects from its targets. -/
def collecting (moment : Moment) (collector : Collector σ μ) (cache : RoutingCache φ) :
    Collector σ μ :=
  (collector.readied moment cache).value

/-- The part of a tick that collects from the targets. -/
def collected (moment : Moment) (collector : Collector σ μ) (cache : RoutingCache φ) :
    Traced (Collector σ μ) :=
  collectAll moment.utc (collector.collecting moment cache).targets
    (collector.collecting moment cache)

/-- The part of a tick that reports a count. -/
def flushed (moment : Moment) (collector : Collector σ μ) (cache : RoutingCache φ) :
    Traced (Collector σ μ) :=
  (collector.collected moment cache).value.flushTelemetry moment.now

/-- The part of a tick that lets the source forget nodes. -/
def cleaned (moment : Moment) (collector : Collector σ μ) (cache : RoutingCache φ) :
    Traced (Collector σ μ) :=
  (collector.flushed moment cache).value.cleanUp moment.now

/-- The events of a tick are those of its parts, one after another. -/
theorem tick_notes (moment : Moment) (collector : Collector σ μ) (cache : RoutingCache φ) :
    (collector.tick moment cache).notes =
      (collector.lookUpStreams moment cache).notes ++ (collector.readied moment cache).notes ++
        (collector.collected moment cache).notes ++ (collector.flushed moment cache).notes ++
          (collector.cleaned moment cache).notes := by
  by_cases h : collector.options.looksUpStreams = true
  · simp only [tick, cleaned, flushed, collected, collecting, readied, lookUpStreams, if_pos h,
      Noted.notes_bind, Noted.notes_pure, List.append_nil, List.append_assoc]
  · simp only [tick, cleaned, flushed, collected, collecting, readied, lookUpStreams, if_neg h,
      Noted.notes_bind, Noted.notes_pure, Noted.value_pure, List.append_nil, List.append_assoc]

variable {α : Type} {view : Event → Option α}

theorem tick_seenBy (moment : Moment) (collector : Collector σ μ) (cache : RoutingCache φ) :
    (collector.tick moment cache).seenBy view =
      (collector.lookUpStreams moment cache).seenBy view ++
        (collector.readied moment cache).seenBy view ++
          (collector.collected moment cache).seenBy view ++
            (collector.flushed moment cache).seenBy view ++
              (collector.cleaned moment cache).seenBy view := by
  simp only [Traced.seenBy, tick_notes, List.filterMap_append]

/-- A view of one concern shows of a tick what it shows of the parts that have that concern. -/
theorem tick_shows {concern : Concern} (hview : Shows view concern) (moment : Moment)
    (collector : Collector σ μ) (cache : RoutingCache φ) :
    (collector.tick moment cache).seenBy view =
      (if concern = .lookUp then (collector.lookUpStreams moment cache).seenBy view else []) ++
        (if concern = .nodes then (collector.readied moment cache).seenBy view else []) ++
          (if concern = .targets then (collector.collected moment cache).seenBy view else []) ++
            (if concern = .telemetry then (collector.flushed moment cache).seenBy view else []) ++
              (if concern = .nodes then (collector.cleaned moment cache).seenBy view else []) := by
  have hlookUp := minds_lookUpStreams moment collector cache
  have hnodes : (collector.readied moment cache).Minds .nodes := minds_refreshNodes _ _
  have htargets : (collector.collected moment cache).Minds .targets := minds_collectAll _ _ _
  have htelemetry : (collector.flushed moment cache).Minds .telemetry :=
    minds_flushTelemetry _ _
  have hcleanUp : (collector.cleaned moment cache).Minds .nodes := minds_cleanUp _ _
  rw [tick_seenBy, ← hlookUp.seenBy_eq_ite hview, ← hnodes.seenBy_eq_ite hview,
    ← htargets.seenBy_eq_ite hview, ← htelemetry.seenBy_eq_ite hview,
    ← hcleanUp.seenBy_eq_ite hview]

/-- What a view of look-ups shows of a tick. -/
theorem tick_lookUp (hview : Shows view .lookUp) (moment : Moment) (collector : Collector σ μ)
    (cache : RoutingCache φ) :
    (collector.tick moment cache).seenBy view =
      (collector.lookUpStreams moment cache).seenBy view := by
  simpa using tick_shows hview moment collector cache

/-- What a view of targets shows of a tick. -/
theorem tick_targets (hview : Shows view .targets) (moment : Moment)
    (collector : Collector σ μ) (cache : RoutingCache φ) :
    (collector.tick moment cache).seenBy view = (collector.collected moment cache).seenBy view := by
  simpa using tick_shows hview moment collector cache

/-- What a view of telemetry shows of a tick. -/
theorem tick_telemetry (hview : Shows view .telemetry) (moment : Moment)
    (collector : Collector σ μ) (cache : RoutingCache φ) :
    (collector.tick moment cache).seenBy view = (collector.flushed moment cache).seenBy view := by
  simpa using tick_shows hview moment collector cache

end Tick

end Collector

end PerfRelay
