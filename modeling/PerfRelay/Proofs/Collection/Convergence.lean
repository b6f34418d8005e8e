import PerfRelay.Proofs.Collection.Fetches

/-!
# A collector whose configurations stay the same

If the fetcher always gives the same answer, a new collector asks for each of its streams and takes
over what the answer says.  From then on it asks once whenever its last request is too old: for the
first stream, so that the second one is found in the new table.

Main results:

- Theorem `refreshStreams_untagged`: the look-up of a new collector.
- Theorems `refreshStreams_recent` and `refreshStreams_expired`: the look-ups after that.
- Theorem `Settled.tick`: what a later tick asks, and what the collector knows after it.
-/

namespace PerfRelay

/-! ## Fetchers that always give the same answer -/

namespace ConfigurationFetcher

variable {φ : Type} [ConfigurationFetcher φ]

/-- The fetcher after it was asked some times. -/
def afterAsks : Nat → φ → φ
  | 0, fetcher => fetcher
  | asks + 1, fetcher => afterAsks asks (fetch fetcher).value.2

/-- The fetcher gives the same answer whenever it is asked. -/
def AlwaysAnswers (fetcher : φ) (answer : List Configuration) : Prop :=
  ∀ asks, (fetch (afterAsks asks fetcher)).value.1 = answer

theorem AlwaysAnswers.next {fetcher : φ} {answer : List Configuration}
    (h : AlwaysAnswers fetcher answer) : AlwaysAnswers (fetch fetcher).value.2 answer :=
  fun asks => h (asks + 1)

end ConfigurationFetcher

open ConfigurationFetcher (AlwaysAnswers)

/-- The table stems from some configurations. -/
structure RoutingTable.Holds (table : RoutingTable) (answer : List Configuration) : Prop where
  rebuilds_pos : 0 < table.rebuilds
  mapping_eq : table.mapping = streamMapping answer
  settings_eq : table.settings = latestSettings answer

/-- The output stream of a data type in some configurations; the empty text stands for no stream. -/
def streamIn (answer : List Configuration) (dataType : String) : String :=
  ((streamMapping answer).get? dataType).getD ""

/-- The configurations route both streams of a collector to output streams or to none. -/
def Routes (answer : List Configuration) : Prop :=
  ∀ stream : Stream, ∀ id, (streamMapping answer).get? stream.dataType = some id →
    id = "" ∨ isStreamId id = true

namespace RoutingTable

variable {table : RoutingTable} {answer : List Configuration}

theorem Holds.streamOf_eq (h : table.Holds answer) (dataType : String) :
    table.streamOf dataType = streamIn answer dataType := by
  rw [streamOf, h.mapping_eq]
  rfl

theorem holds_absorb (hanswer : answer ≠ []) (table : RoutingTable) :
    (table.absorb answer).Holds answer := by
  obtain ⟨first, rest, rfl⟩ := List.exists_cons_of_ne_nil hanswer
  rw [absorb_cons]
  exact ⟨Nat.succ_pos _, rfl, rfl⟩

/-- A recent table answers a look-up with the tag that stems from it. -/
theorem Holds.answers (h : table.Holds answer) (hroutes : Routes answer) (stream : Stream)
    {age : Nat} (hrecent : age < routingLifetime) :
    table.Answers stream.dataType (streamIn answer stream.dataType) age := by
  have hknows : isStreamId (streamIn answer stream.dataType) = true →
      (table.mapping.get? stream.dataType).isSome = true := by
    intro hid
    rw [h.mapping_eq]
    by_contra hunknown
    rw [Option.not_isSome_iff_eq_none] at hunknown
    rw [streamIn, hunknown] at hid
    exact absurd hid (by decide)
  refine ⟨hrecent, ?_, hknows⟩
  cases hget : (streamMapping answer).get? stream.dataType with
  | none =>
    refine .inr ⟨?_, h.rebuilds_pos⟩
    rw [streamIn, hget]
    rfl
  | some id =>
    rw [streamIn, hget]
    rcases hroutes stream id hget with rfl | hid
    · exact .inr ⟨rfl, h.rebuilds_pos⟩
    · exact .inl hid

end RoutingTable

namespace RoutingCache

variable {φ : Type} [ConfigurationFetcher φ] {cache : RoutingCache φ}
  {answer : List Configuration}

theorem asked_of_alwaysAnswers (hanswer : answer ≠ []) (h : AlwaysAnswers cache.fetcher answer) :
    AlwaysAnswers cache.asked.fetcher answer ∧ cache.asked.table.Holds answer := by
  have hnext : cache.nextAnswer.1 = answer := h 0
  refine ⟨h.next, ?_⟩
  rw [asked, hnext]
  exact RoutingTable.holds_absorb hanswer cache.table

end RoutingCache

/-! ## One look-up -/

namespace Collector

variable {σ μ φ : Type}

/-- A collector has taken over what some configurations say, on top of a first policy. -/
structure Settled (collector : Collector σ μ) (answer : List Configuration) (first : Policy) :
    Prop where
  looksUpStreams : collector.options.looksUpStreams = true
  tag_eq : ∀ stream, collector.tag stream = streamIn answer stream.dataType
  policy_eq : collector.policy = Policy.resolve (latestSettings answer) first

theorem Settled.of_bearings {collector other : Collector σ μ} {answer : List Configuration}
    {first : Policy} (h : collector.Settled answer first)
    (heq : other.bearings = collector.bearings) : other.Settled answer first := by
  have hoptions : other.options = collector.options := congrArg Bearings.options heq
  have htag : other.tag = collector.tag := congrArg Bearings.tag heq
  have hpolicy : other.policy = collector.policy := congrArg Bearings.policy heq
  exact ⟨by rw [hoptions]; exact h.looksUpStreams, by rw [htag]; exact h.tag_eq,
    by rw [hpolicy]; exact h.policy_eq⟩

/-- A look-up or a tick asks some times, leaves a collector that has taken over the answer and knows
when it asked last, and leaves a table that stems from the answer. -/
structure Refreshes (x : Traced (Collector σ μ × RoutingCache φ)) (answer : List Configuration)
    (first : Policy) (fetches asked : Nat) : Prop where
  fetches_eq : x.fetches = fetches
  asked_eq : x.value.1.configRefreshedAt = asked
  settled : x.value.1.Settled answer first
  holds : x.value.2.table.Holds answer

variable [ConfigurationFetcher φ]

/-- No table answers a look-up with a default tag. -/
theorem not_answers_defaultTag (table : RoutingTable) (stream : Stream) (age : Nat) :
    ¬ table.Answers stream.dataType stream.defaultTag age := by
  intro h
  rcases h.trusts with hid | ⟨hempty, -⟩
  · cases stream with
    | perf => exact absurd hid (by decide)
    | insights => exact absurd hid (by decide)
  · cases stream with
    | perf => exact absurd hempty (by decide)
    | insights => exact absurd hempty (by decide)

/-- A look-up with a default tag asks, and does not count as one in the table. -/
theorem outputStream_defaultTag (cache : RoutingCache φ) (stream : Stream) (age : Nat) :
    (cache.outputStream stream.dataType stream.defaultTag age).value =
      (⟨cache.asked.table.streamOf stream.dataType, false⟩, cache.asked) := by
  have hid : isStreamId stream.defaultTag = false := by
    cases stream with
    | perf => decide
    | insights => decide
  rw [RoutingCache.outputStream_of_not_answers (not_answers_defaultTag _ _ _), hid, Bool.and_false]

variable {collector : Collector σ μ} {cache : RoutingCache φ} {answer : List Configuration}
  {first : Policy}

/-- If both look-ups leave a table that stems from the answer, the collector takes it over.  The
policy is made from it again, or the collector has it already. -/
theorem settled_refreshStreams (hlooks : collector.options.looksUpStreams = true) {now : Nat}
    (hperf : (collector.perfLookUp now cache).2.table.Holds answer)
    (hinsights : (collector.insightsLookUp now cache).2.table.Holds answer)
    (hpolicy : collector.policy = Policy.resolve (latestSettings answer) first ∨
      collector.policy = first ∧ ¬ collector.AllFromTable now cache) :
    (collector.refreshStreams now cache).value.1.Settled answer first := by
  refine ⟨?_, ?_, ?_⟩
  · rw [refreshStreams_options, hlooks]
  · intro stream
    cases stream with
    | perf =>
      rw [tag, refreshStreams_perfTag, ← hperf.streamOf_eq]
      exact cache.outputStream_stream _ _ _
    | insights =>
      rw [tag, refreshStreams_insightsTag, ← hinsights.streamOf_eq]
      exact (collector.perfLookUp now cache).2.outputStream_stream _ _ _
  · by_cases hall : collector.AllFromTable now cache
    · rw [refreshStreams_policy_of_allFromTable hall]
      exact hpolicy.resolve_right fun h => h.2 hall
    · rw [refreshStreams_policy_of_not_allFromTable hall, refreshStreams_cache,
        hinsights.settings_eq]
      rcases hpolicy with hpolicy | ⟨hpolicy, -⟩
      · rw [hpolicy, Policy.resolve_resolve]
      · rw [hpolicy]

/-- A collector with default tags asks for each stream and takes over the answer. -/
theorem refreshStreams_untagged (hanswer : answer ≠ [])
    (halways : AlwaysAnswers cache.fetcher answer)
    (hlooks : collector.options.looksUpStreams = true)
    (htag : ∀ stream, collector.tag stream = stream.defaultTag) (now : Nat) :
    Refreshes (collector.refreshStreams now cache) answer collector.policy 2 now := by
  have hperfTag : collector.perfTag = Stream.perf.defaultTag := htag .perf
  have hinsightsTag : collector.insightsTag = Stream.insights.defaultTag := htag .insights
  have hperf : collector.perfLookUp now cache =
      (⟨cache.asked.table.streamOf Stream.perf.dataType, false⟩, cache.asked) := by
    rw [perfLookUp, hperfTag, outputStream_defaultTag]
  have hinsights : collector.insightsLookUp now cache =
      (⟨cache.asked.asked.table.streamOf Stream.insights.dataType, false⟩, cache.asked.asked) := by
    rw [insightsLookUp, hperf, hinsightsTag, outputStream_defaultTag]
  obtain ⟨hstill, honce⟩ := RoutingCache.asked_of_alwaysAnswers hanswer halways
  obtain ⟨-, htwice⟩ := RoutingCache.asked_of_alwaysAnswers hanswer hstill
  refine ⟨?_, ?_, ?_, ?_⟩
  · rw [fetches_refreshStreams, hperfTag, hinsightsTag,
      RoutingCache.fetches_of_not_answers (not_answers_defaultTag _ _ _),
      RoutingCache.fetches_of_not_answers (not_answers_defaultTag _ _ _)]
  · rw [refreshStreams_configRefreshedAt, hinsights]
    rfl
  · apply settled_refreshStreams hlooks _ _ (.inr ⟨rfl, _⟩)
    · rwa [hperf]
    · rwa [hinsights]
    · intro hall
      have hflag := hall.1
      rw [hperf] at hflag
      exact Bool.false_ne_true hflag
  · rwa [refreshStreams_cache, hinsights]

/-- A collector that has taken over the answer does not ask while its last request is recent. -/
theorem refreshStreams_recent (hroutes : Routes answer) (htable : cache.table.Holds answer)
    (h : collector.Settled answer first) {now : Nat}
    (hrecent : now - collector.configRefreshedAt < routingLifetime) :
    Refreshes (collector.refreshStreams now cache) answer first 0
      collector.configRefreshedAt := by
  have hperfAnswers : cache.table.Answers Stream.perf.dataType collector.perfTag
      (now - collector.configRefreshedAt) := by
    have hanswers := htable.answers hroutes .perf hrecent
    rwa [← h.tag_eq .perf] at hanswers
  have hinsightsAnswers : cache.table.Answers Stream.insights.dataType collector.insightsTag
      (now - collector.configRefreshedAt) := by
    have hanswers := htable.answers hroutes .insights hrecent
    rwa [← h.tag_eq .insights] at hanswers
  obtain ⟨hperf, hasked, hinsights⟩ := lookUps_of_answers hperfAnswers hinsightsAnswers
  refine ⟨?_, ?_, ?_, ?_⟩
  · rw [fetches_refreshStreams, RoutingCache.fetches_of_answers hperfAnswers, hperf, hasked,
      RoutingCache.fetches_of_answers hinsightsAnswers]
  · rw [refreshStreams_configRefreshedAt, hinsights, hasked, if_pos rfl]
  · apply settled_refreshStreams h.looksUpStreams _ _ (.inl h.policy_eq)
    · rwa [hperf]
    · rwa [hinsights]
  · rwa [refreshStreams_cache, hinsights]

/-- A collector that has taken over the answer asks for the first stream when its last request is
too old, and then finds the second one in the new table. -/
theorem refreshStreams_expired (hanswer : answer ≠ [])
    (halways : AlwaysAnswers cache.fetcher answer) (hroutes : Routes answer)
    (h : collector.Settled answer first) {now : Nat}
    (hold : ¬ now - collector.configRefreshedAt < routingLifetime) :
    Refreshes (collector.refreshStreams now cache) answer first 1 now := by
  obtain ⟨-, hnew⟩ := RoutingCache.asked_of_alwaysAnswers hanswer halways
  have hasks : ¬ cache.table.Answers Stream.perf.dataType collector.perfTag
      (now - collector.configRefreshedAt) := fun hanswers => hold hanswers.recent
  have hperf : collector.perfLookUp now cache =
      (⟨cache.asked.table.streamOf Stream.perf.dataType, false⟩, cache.asked) := by
    rw [perfLookUp, RoutingCache.outputStream_of_not_answers hasks, decide_eq_false hold,
      Bool.false_and]
  have hasked : collector.askedAfterPerf now cache = now := by
    rw [askedAfterPerf, hperf]
    rfl
  have hanswers : cache.asked.table.Answers Stream.insights.dataType collector.insightsTag
      (now - now) := by
    have hrecent : now - now < routingLifetime := by
      rw [Nat.sub_self]
      decide
    have hanswers := hnew.answers hroutes .insights hrecent
    rwa [← h.tag_eq .insights] at hanswers
  have hinsights : collector.insightsLookUp now cache =
      (⟨cache.asked.table.streamOf Stream.insights.dataType, true⟩, cache.asked) := by
    rw [insightsLookUp, hperf, hasked]
    exact RoutingCache.outputStream_of_answers hanswers
  refine ⟨?_, ?_, ?_, ?_⟩
  · rw [fetches_refreshStreams, RoutingCache.fetches_of_not_answers hasks, hperf, hasked,
      RoutingCache.fetches_of_answers hanswers]
  · rw [refreshStreams_configRefreshedAt, hinsights, hasked, if_pos rfl]
  · apply settled_refreshStreams h.looksUpStreams _ _ (.inl h.policy_eq)
    · rwa [hperf]
    · rwa [hinsights]
  · rwa [refreshStreams_cache, hinsights]

/-! ## Ticks -/

section Ticks

variable [MetricSource σ] [NodeLister μ]

/-- What a tick does after its look-up changes nothing about that. -/
theorem Refreshes.tick {fetches asked : Nat} {moment : Moment}
    (hlooks : collector.options.looksUpStreams = true)
    (h : Refreshes (collector.refreshStreams moment.now cache) answer first fetches asked) :
    Refreshes (collector.tick moment cache) answer first fetches asked := by
  obtain ⟨hbearings, hcache⟩ := tick_bearings hlooks moment cache
  refine ⟨?_, ?_, h.settled.of_bearings hbearings, ?_⟩
  · rw [fetches_tick hlooks, h.fetches_eq]
  · exact (congrArg Bearings.configRefreshedAt hbearings).trans h.asked_eq
  · rw [hcache]
    exact h.holds

/-- The tick of a collector that has taken over the answer. -/
theorem Settled.tick (hanswer : answer ≠ []) (hroutes : Routes answer)
    (h : collector.Settled answer first) (halways : AlwaysAnswers cache.fetcher answer)
    (htable : cache.table.Holds answer) (moment : Moment) :
    Refreshes (collector.tick moment cache) answer first
      (if collector.configRefreshedAt + routingLifetime ≤ moment.now then 1 else 0)
      (if collector.configRefreshedAt + routingLifetime ≤ moment.now then moment.now
        else collector.configRefreshedAt) := by
  by_cases hold : collector.configRefreshedAt + routingLifetime ≤ moment.now
  · rw [if_pos hold, if_pos hold]
    have hexpired : ¬ moment.now - collector.configRefreshedAt < routingLifetime := by omega
    exact (refreshStreams_expired hanswer halways hroutes h hexpired).tick h.looksUpStreams
  · rw [if_neg hold, if_neg hold]
    have hrecent : moment.now - collector.configRefreshedAt < routingLifetime := by
      have hlifetime : 0 < routingLifetime := by decide
      omega
    exact (refreshStreams_recent hroutes htable h hrecent).tick h.looksUpStreams

end Ticks

end Collector

end PerfRelay
