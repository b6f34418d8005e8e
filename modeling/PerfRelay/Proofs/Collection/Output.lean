import Mathlib.Data.List.Basic
import Mathlib.Data.List.Forall2
import PerfRelay.Proofs.Collection.Bearings
import PerfRelay.Proofs.Collection.Concerns
import PerfRelay.Proofs.Collection.Scripts

/-!
# What a tick hands on

A tick asks the source for both streams of every target, and hands on what it gets.  What it hands
on, and what it reports, is made up answer by answer: each answer has its part, which depends on
nothing but that answer, the tag of its stream and the choices of the collector.

Main results:

- Theorem `collectAll_output`: what collecting from some targets hands on, reports and asks for.
- Theorem `tick_output`: the same for a tick, and what an answer that is lost changes.
-/

namespace PerfRelay

/-- An answer of the source, and what it was asked for. -/
structure Answered where
  node : Option String
  stream : Stream
  answer : Except Failure (List Record)

namespace Answered

/-- Why there are no records. -/
def failure? (answered : Answered) : Option Failure :=
  match answered.answer with
  | .ok _ => none
  | .error failure => some failure

end Answered

namespace Event

/-- The batch that is handed on, with its tag. -/
def batch? : Event → Option (String × List Record)
  | .emitted tag records => some (tag, records)
  | _ => none

/-- The failure that is reported. -/
def exception? : Event → Option Failure
  | .reported (.exception failure) => some failure
  | _ => none

/-- What the source is asked for. -/
def query? : Event → Option (Stream × Query)
  | .queried stream query => some (stream, query)
  | _ => none

theorem shows_batch? : Shows batch? .targets := by
  intro event hconcern
  cases event with
  | emitted tag records => exact absurd rfl hconcern
  | _ => rfl

theorem shows_exception? : Shows exception? .targets := by
  intro event hconcern
  cases event with
  | reported report =>
    cases report with
    | exception failure => exact absurd rfl hconcern
    | metric name value tags => rfl
  | _ => rfl

theorem shows_query? : Shows query? .targets := by
  intro event hconcern
  cases event with
  | queried stream query => exact absurd rfl hconcern
  | _ => rfl

end Event

namespace Collector

variable {σ μ φ : Type}

/-! ## The parts of the answers -/

/-- The second batch for the records of a stream: insights have one wherever there is a second tag,
and perf records only where the local node is the target. -/
def secondBatch (collector : Collector σ μ) : Stream → List Record → List (String × List Record)
  | .perf, records =>
    if collector.registry.isNone then collector.options.secondTag.toList.map (·, records) else []
  | .insights, records => collector.options.secondTag.toList.map (·, records)

/-- The batches that an answer leads to, with their tags. -/
def batches (collector : Collector σ μ) (answered : Answered) : List (String × List Record) :=
  match answered.answer with
  | .error _ => []
  | .ok records =>
    if records.isEmpty ∨ collector.tag answered.stream = "" then []
    else (collector.tag answered.stream, records) ::
      collector.secondBatch answered.stream records

theorem batches_of_untagged {collector : Collector σ μ} {answered : Answered}
    (h : collector.tag answered.stream = "") : collector.batches answered = [] := by
  unfold batches
  split
  · rfl
  · rw [if_pos (.inr h)]

/-- An answer leads to nothing because it is a failure, or because its stream has no tag. -/
def loses (collector : Collector σ μ) (answered : Answered) : Bool :=
  answered.failure?.isSome || (collector.tag answered.stream).isEmpty

theorem batches_of_loses {collector : Collector σ μ} {answered : Answered}
    (h : collector.loses answered = true) : collector.batches answered = [] := by
  rw [loses, Bool.or_eq_true] at h
  rcases h with hfailure | htag
  · unfold batches
    split
    · rfl
    · rename_i records hok
      rw [Answered.failure?, hok] at hfailure
      exact absurd hfailure Bool.false_ne_true
  · exact batches_of_untagged (by simpa using htag)

theorem secondBatch_eq (collector : Collector σ μ) (stream : Stream) (records : List Record) :
    collector.secondBatch stream records =
      (collector.secondTag? stream).toList.map (·, records) := by
  cases stream with
  | perf =>
    cases hregistry : collector.registry <;> simp [secondBatch, secondTag?, isRemote, hregistry]
  | insights => simp [secondBatch, secondTag?]

/-- What follows from an answer: its batches are handed on, and its failure is reported.  Everything
else is log entries. -/
theorem handle_eq (collector : Collector σ μ) (answered : Answered) :
    ∃ before after : List Entry,
      collector.handle answered.stream answered.node answered.answer =
        before.map .logged ++
          ((collector.batches answered).map (fun batch => .emitted batch.1 batch.2) ++
            (answered.failure?.toList.map (fun failure => .reported (.exception failure)) ++
              after.map .logged)) := by
  obtain ⟨node, stream, answer⟩ := answered
  cases answer with
  | error failure => exact ⟨[_], [], rfl⟩
  | ok records =>
    by_cases hempty : records = []
    · subst hempty
      exact ⟨[], [], by simp [handle, batches, Answered.failure?]⟩
    · have hrecords : ¬ records.isEmpty = true := by simpa using hempty
      by_cases htag : collector.tag stream = ""
      · have hnone : (collector.tag stream).isEmpty = true := by simpa using htag
        have hskip : ∃ entry, collector.deliver stream node records = [.logged entry] := by
          rw [deliver, if_neg hrecords, if_pos hnone]
          exact ⟨_, rfl⟩
        obtain ⟨entry, hentry⟩ := hskip
        refine ⟨[entry], [], ?_⟩
        rw [batches_of_untagged htag, handle, hentry]
        rfl
      · have htagged : ¬ (collector.tag stream).isEmpty = true := by simpa using htag
        have hbatches : collector.batches ⟨node, stream, .ok records⟩ =
            (collector.tag stream, records) :: collector.secondBatch stream records :=
          if_neg (by simp [hempty, htag])
        have hnotes : ∃ after : List Entry,
            collector.successNotes stream node records.length = after.map .logged := by
          unfold successNotes
          split
          · exact ⟨[_], rfl⟩
          · exact ⟨[], rfl⟩
        obtain ⟨after, hafter⟩ := hnotes
        refine ⟨[], after, ?_⟩
        rw [hbatches, handle, deliver, if_neg hrecords, if_neg htagged, hafter, secondBatch_eq]
        simp [Answered.failure?]

/-! ## Answers that are lost -/

/-- Two collectors have the same choices, and targets of the same kind. -/
structure Resembles (collector other : Collector σ μ) : Prop where
  options_eq : other.options = collector.options
  isNone_eq : other.registry.isNone = collector.registry.isNone

/-- Another collector loses its answer, or it has the same one and the same tag for its stream. -/
def KeepsOrLoses (collector other : Collector σ μ) (answered otherAnswered : Answered) : Prop :=
  other.loses otherAnswered = true ∨
    otherAnswered = answered ∧ other.tag answered.stream = collector.tag answered.stream

theorem Resembles.batches_eq {collector other : Collector σ μ} (h : collector.Resembles other)
    {answered : Answered} (htag : other.tag answered.stream = collector.tag answered.stream) :
    other.batches answered = collector.batches answered := by
  have hsecond : other.secondBatch answered.stream = collector.secondBatch answered.stream := by
    funext records
    cases answered.stream with
    | perf => simp only [secondBatch, h.options_eq, h.isNone_eq]
    | insights => simp only [secondBatch, h.options_eq]
  simp only [batches, htag, hsecond]

/-- Answers that are lost change nothing about the others.  The induction is on the answers. -/
theorem Resembles.flatMap_batches {collector other : Collector σ μ}
    (h : collector.Resembles other) {answered otherAnswered : List Answered}
    (hanswers : List.Forall₂ (collector.KeepsOrLoses other) answered otherAnswered) :
    otherAnswered.flatMap other.batches =
      ((answered.zip otherAnswered).filter (fun pair => !other.loses pair.2)).flatMap
        (fun pair => collector.batches pair.1) := by
  induction hanswers with
  | nil => rfl
  | @cons first otherFirst rest otherRest hfirst hrest ih =>
    rw [List.flatMap_cons, List.zip_cons_cons, ih]
    by_cases hlost : other.loses otherFirst = true
    · rw [batches_of_loses hlost, List.nil_append, List.filter_cons_of_neg (by simp [hlost])]
    · obtain ⟨rfl, htag⟩ := hfirst.resolve_left hlost
      rw [h.batches_eq htag, List.filter_cons_of_pos (by simp [hlost]), List.flatMap_cons]

section Views

variable {β : Type} {view : Event → Option β}

/-- What a view shows of the part of an answer. -/
def shown (view : Event → Option β) (collector : Collector σ μ) (answered : Answered) : List β :=
  (collector.batches answered).filterMap (fun batch => view (.emitted batch.1 batch.2)) ++
    answered.failure?.toList.filterMap (fun failure => view (.reported (.exception failure)))

theorem seen_handle {concern : Concern} (hview : Shows view concern)
    (collector : Collector σ μ) (answered : Answered) :
    (collector.handle answered.stream answered.node answered.answer).filterMap view =
      shown view collector answered := by
  obtain ⟨before, after, heq⟩ := collector.handle_eq answered
  rw [heq, List.filterMap_append, List.filterMap_append, List.filterMap_append,
    hview.of_logged, hview.of_logged, List.filterMap_map, List.filterMap_map,
    List.nil_append, List.append_nil]
  rfl

theorem shown_batch? (collector : Collector σ μ) (answered : Answered) :
    shown Event.batch? collector answered = collector.batches answered := by
  have hfailure : answered.failure?.toList.filterMap
      (fun failure => Event.batch? (.reported (.exception failure))) = [] := by
    rw [List.filterMap_eq_nil_iff]
    exact fun _ _ => rfl
  rw [shown, hfailure, List.append_nil]
  exact List.filterMap_some ..

theorem shown_exception? (collector : Collector σ μ) (answered : Answered) :
    shown Event.exception? collector answered = answered.failure?.toList := by
  have hbatches : (collector.batches answered).filterMap
      (fun batch => Event.exception? (.emitted batch.1 batch.2)) = [] := by
    rw [List.filterMap_eq_nil_iff]
    exact fun _ _ => rfl
  rw [shown, hbatches, List.nil_append]
  exact List.filterMap_some ..

theorem shown_query? (collector : Collector σ μ) (answered : Answered) :
    shown Event.query? collector answered = [] := by
  rw [shown, List.append_eq_nil_iff, List.filterMap_eq_nil_iff, List.filterMap_eq_nil_iff]
  exact ⟨fun _ _ => rfl, fun _ _ => rfl⟩

end Views

/-! ## Targets -/

section Targets

variable [MetricSource σ]

/-- The answers of a source that is asked for both streams of some targets, one after another. -/
def answers (query : Option String → Query) : List (Option String) → σ → List Answered
  | [], _ => []
  | node :: nodes, source =>
    let perf := (MetricSource.fetch .perf (query node) source).value
    let insights := (MetricSource.fetch .insights (query node) perf.2).value
    ⟨node, .perf, perf.1⟩ :: ⟨node, .insights, insights.1⟩ :: answers query nodes insights.2

/-- The source is asked for both streams of every target, whatever it answers. -/
theorem answers_asked (query : Option String → Query) (nodes : List (Option String))
    (source : σ) :
    (answers query nodes source).map (fun answered => (answered.node, answered.stream)) =
      nodes.flatMap (fun node => [(node, .perf), (node, .insights)]) := by
  induction nodes generalizing source with
  | nil => rfl
  | cons node nodes ih =>
    rw [answers, List.map_cons, List.map_cons, ih, List.flatMap_cons]
    rfl

variable {β : Type} {view : Event → Option β}

theorem seenBy_ask {concern : Concern} (hview : Shows view concern)
    (collector : Collector σ μ) (utc : Nat) (stream : Stream) (node : Option String) :
    (collector.ask utc stream node).seenBy view =
      (view (.queried stream (collector.query utc node))).toList := by
  simp only [ask, Traced.seenBy_bind, Traced.seenBy_note, Traced.seenBy_ofLogged hview,
    Traced.seenBy_pure, List.append_nil]

/-- What a view shows of collecting from a target: both queries come first. -/
theorem seenBy_collectTarget {concern : Concern} (hview : Shows view concern)
    (collector : Collector σ μ) (utc : Nat) (node : Option String) :
    (collector.collectTarget utc node).seenBy view =
      (view (.queried .perf (collector.query utc node))).toList ++
        (view (.queried .insights (collector.query utc node))).toList ++
          (answers (collector.query utc) [node] collector.source).flatMap
            (shown view collector) := by
  have hhandle : ∀ (source : σ) (counters : Counters) (stream : Stream)
      (answer : Except Failure (List Record)),
      (({ collector with source, counters }).handle stream node answer).filterMap view =
        shown view collector ⟨node, stream, answer⟩ :=
    fun source counters stream answer =>
      seen_handle hview { collector with source, counters } ⟨node, stream, answer⟩
  simp only [collectTarget, Traced.seenBy_bind, seenBy_ask hview, Traced.seenBy_pure,
    List.append_nil, answers, List.flatMap_cons, List.flatMap_nil, List.append_assoc]
  exact congrArg _ (congrArg _ (congrArg₂ _ (hhandle _ _ _ _) (hhandle _ _ _ _)))

/-- What a view that shows no queries shows of collecting from some targets.  The induction is on
the targets: what comes before a target changes the source and the counters only. -/
theorem seenBy_collectAll {concern : Concern} (hview : Shows view concern)
    (hqueried : ∀ stream query, view (.queried stream query) = none)
    (collector : Collector σ μ) (utc : Nat) (nodes : List (Option String)) :
    (collectAll utc nodes collector).seenBy view =
      (answers (collector.query utc) nodes collector.source).flatMap (shown view collector) := by
  induction nodes generalizing collector with
  | nil => rfl
  | cons node nodes ih =>
    have hanswers : answers (collector.query utc) (node :: nodes) collector.source =
        answers (collector.query utc) [node] collector.source ++
          answers ((collector.collectTarget utc node).value.query utc) nodes
            (collector.collectTarget utc node).value.source :=
      rfl
    have hshown : shown view (collector.collectTarget utc node).value = shown view collector :=
      rfl
    rw [collectAll, Traced.seenBy_bind, seenBy_collectTarget hview, hqueried, hqueried, ih,
      hshown, hanswers, List.flatMap_append]
    rfl

/-- What collecting from some targets hands on and reports, and what it asks for. -/
theorem collectAll_output (collector : Collector σ μ) (utc : Nat)
    (nodes : List (Option String)) :
    (collectAll utc nodes collector).seenBy Event.batch? =
        (answers (collector.query utc) nodes collector.source).flatMap collector.batches ∧
      (collectAll utc nodes collector).seenBy Event.exception? =
        (answers (collector.query utc) nodes collector.source).filterMap Answered.failure? ∧
      (collectAll utc nodes collector).seenBy Event.query? =
        nodes.flatMap (fun node => [(.perf, collector.query utc node),
          (.insights, collector.query utc node)]) := by
  refine ⟨?_, ?_, ?_⟩
  · rw [seenBy_collectAll Event.shows_batch? (fun _ _ => rfl)]
    congr 1
    exact funext collector.shown_batch?
  · rw [seenBy_collectAll Event.shows_exception? (fun _ _ => rfl), List.filterMap_eq_flatMap_toList]
    congr 1
    exact funext collector.shown_exception?
  · induction nodes generalizing collector with
    | nil => rfl
    | cons node nodes ih =>
      have hnone : (answers (collector.query utc) [node] collector.source).flatMap
          (shown Event.query? collector) = [] := by
        rw [List.flatMap_eq_nil_iff]
        exact fun answered _ => collector.shown_query? answered
      rw [collectAll, Traced.seenBy_bind, seenBy_collectTarget Event.shows_query?, hnone, ih]
      rfl

end Targets

/-! ## Ticks -/

section Ticks

variable [ConfigurationFetcher φ] [MetricSource σ] [NodeLister μ]

/-- The answers that the source gives in a tick. -/
def answered (moment : Moment) (collector : Collector σ μ) (cache : RoutingCache φ) :
    List Answered :=
  answers ((collector.collecting moment cache).query moment.utc)
    (collector.collecting moment cache).targets (collector.collecting moment cache).source

variable (moment : Moment) (collector : Collector σ μ) (cache : RoutingCache φ)

/-- What the targets are asked and what goes to them is as the look-up of the streams leaves it. -/
theorem collecting_bearings :
    (collector.collecting moment cache).bearings =
      (collector.lookUpStreams moment cache).value.1.bearings :=
  bearings_refreshNodes _ _

theorem tick_batches :
    (collector.tick moment cache).seenBy Event.batch? =
      (collector.answered moment cache).flatMap (collector.collecting moment cache).batches := by
  rw [tick_targets Event.shows_batch?]
  exact (collectAll_output _ _ _).1

theorem tick_exceptions :
    (collector.tick moment cache).seenBy Event.exception? =
      (collector.answered moment cache).filterMap Answered.failure? := by
  rw [tick_targets Event.shows_exception?]
  exact (collectAll_output _ _ _).2.1

theorem tick_queries :
    (collector.tick moment cache).seenBy Event.query? =
      (collector.collecting moment cache).targets.flatMap
        (fun node => [(.perf, (collector.collecting moment cache).query moment.utc node),
          (.insights, (collector.collecting moment cache).query moment.utc node)]) := by
  rw [tick_targets Event.shows_query?]
  exact (collectAll_output _ _ _).2.2

/-- What a tick hands on, reports and asks for, with the tags and the policy that its look-up of the
streams leaves.  What another tick hands on that keeps some of its answers and loses the others is
the same without the parts of those. -/
theorem tick_output :
    (collector.collecting moment cache).bearings =
        (collector.lookUpStreams moment cache).value.1.bearings ∧
      (collector.answered moment cache).map (fun answered => (answered.node, answered.stream)) =
        (collector.collecting moment cache).targets.flatMap
          (fun node => [(node, .perf), (node, .insights)]) ∧
      (collector.tick moment cache).seenBy Event.batch? =
        (collector.answered moment cache).flatMap (collector.collecting moment cache).batches ∧
      (collector.tick moment cache).seenBy Event.exception? =
        (collector.answered moment cache).filterMap Answered.failure? ∧
      (collector.tick moment cache).seenBy Event.query? =
        (collector.collecting moment cache).targets.flatMap
          (fun node => [(.perf, (collector.collecting moment cache).query moment.utc node),
            (.insights, (collector.collecting moment cache).query moment.utc node)]) ∧
      ∀ (otherMoment : Moment) (other : Collector σ μ) (otherCache : RoutingCache φ),
        (collector.collecting moment cache).Resembles
          (other.collecting otherMoment otherCache) →
        List.Forall₂ ((collector.collecting moment cache).KeepsOrLoses
            (other.collecting otherMoment otherCache))
          (collector.answered moment cache) (other.answered otherMoment otherCache) →
        (other.tick otherMoment otherCache).seenBy Event.batch? =
          (((collector.answered moment cache).zip
            (other.answered otherMoment otherCache)).filter
              (fun pair => !(other.collecting otherMoment otherCache).loses pair.2)).flatMap
                (fun pair => (collector.collecting moment cache).batches pair.1) := by
  refine ⟨collecting_bearings moment collector cache, answers_asked _ _ _,
    tick_batches moment collector cache, tick_exceptions moment collector cache,
    tick_queries moment collector cache, ?_⟩
  intro otherMoment other otherCache hresembles hanswers
  rw [tick_batches]
  exact hresembles.flatMap_batches hanswers

end Ticks

/-- A collector of two remote nodes, with a second tag and with fixed answers of its source. -/
def ofTwoNodes (answers : List (Except Failure (List Record))) :
    Collector FixedRecords FixedNodes :=
  start ⟨"c", false, false, 60000000, some "m"⟩ ⟨answers⟩ (some ⟨["a", "b"]⟩) 0

/-- The first query of a tick fails, and what the other ones lead to stays. -/
theorem tick_output_of_failure :
    ((ofTwoNodes [.error ⟨[], .text "x"⟩, .ok [.null], .ok [], .ok [.null]]).tick ⟨0, 0⟩
        (.start (FixedAnswers.always []))).value.1.nodes = ["a", "b"] ∧
      ((ofTwoNodes [.error ⟨[], .text "x"⟩, .ok [.null], .ok [], .ok [.null]]).tick ⟨0, 0⟩
        (.start (FixedAnswers.always []))).seenBy Event.batch? =
      [(Stream.insights.defaultTag, [.null]), ("m", [.null]),
        (Stream.insights.defaultTag, [.null]), ("m", [.null])] := by
  have hresembles : ((ofTwoNodes [.ok [.null], .ok [.null], .ok [], .ok [.null]]).collecting ⟨0, 0⟩
        (.start (FixedAnswers.always []))).Resembles
      ((ofTwoNodes [.error ⟨[], .text "x"⟩, .ok [.null], .ok [], .ok [.null]]).collecting ⟨0, 0⟩
        (.start (FixedAnswers.always []))) :=
    ⟨rfl, rfl⟩
  have hanswers : List.Forall₂
      (((ofTwoNodes [.ok [.null], .ok [.null], .ok [], .ok [.null]]).collecting ⟨0, 0⟩
        (.start (FixedAnswers.always []))).KeepsOrLoses
        ((ofTwoNodes [.error ⟨[], .text "x"⟩, .ok [.null], .ok [], .ok [.null]]).collecting ⟨0, 0⟩
          (.start (FixedAnswers.always []))))
      ((ofTwoNodes [.ok [.null], .ok [.null], .ok [], .ok [.null]]).answered ⟨0, 0⟩
        (.start (FixedAnswers.always [])))
      ((ofTwoNodes [.error ⟨[], .text "x"⟩, .ok [.null], .ok [], .ok [.null]]).answered ⟨0, 0⟩
        (.start (FixedAnswers.always []))) :=
    .cons (.inl rfl) (.cons (.inr ⟨rfl, rfl⟩) (.cons (.inr ⟨rfl, rfl⟩)
      (.cons (.inr ⟨rfl, rfl⟩) .nil)))
  refine ⟨rfl, ?_⟩
  rw [(tick_output ⟨0, 0⟩ _ _).2.2.2.2.2 ⟨0, 0⟩ _ _ hresembles hanswers]
  rfl

end Collector

end PerfRelay
