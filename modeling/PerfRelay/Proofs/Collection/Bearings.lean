import PerfRelay.Collection.Collector
import PerfRelay.Proofs.Routing.Lookups

/-!
# What a tick does to the tags and the policy

A tick looks up the streams first.  Whatever it does after that leaves alone what the collector
knows of its streams: its tags, its policy and when the fetcher was asked.

Main results:

- Theorem `tick_bearings`: these are as the look-up leaves them, and so is the cache.
- Theorem `allFromTable_iff`: when both look-ups count as ones in the table.
-/

namespace PerfRelay

/-- What a collector knows of its streams, and its choices. -/
structure Bearings where
  options : CollectorOptions
  policy : Policy
  tag : Stream → String
  configRefreshedAt : Nat

namespace Collector

variable {σ μ φ : Type}

/-- What the collector knows of its streams. -/
def bearings (collector : Collector σ μ) : Bearings :=
  ⟨collector.options, collector.policy, collector.tag, collector.configRefreshedAt⟩

/-! ## The later parts of a tick -/

theorem bearings_collectTarget [MetricSource σ] (collector : Collector σ μ) (utc : Nat)
    (node : Option String) :
    (collector.collectTarget utc node).value.bearings = collector.bearings :=
  rfl

theorem bearings_collectAll [MetricSource σ] (collector : Collector σ μ) (utc : Nat)
    (nodes : List (Option String)) :
    (collectAll utc nodes collector).value.bearings = collector.bearings := by
  induction nodes generalizing collector with
  | nil => rfl
  | cons node nodes ih =>
    rw [collectAll, Noted.value_bind, ih]
    exact bearings_collectTarget collector utc node

theorem bearings_refreshNodes [MetricSource σ] [NodeLister μ] (collector : Collector σ μ)
    (now : Nat) : (collector.refreshNodes now).value.bearings = collector.bearings := by
  unfold refreshNodes
  split
  · rfl
  · rfl

theorem bearings_flushTelemetry (collector : Collector σ μ) (now : Nat) :
    (collector.flushTelemetry now).value.bearings = collector.bearings :=
  rfl

theorem bearings_cleanUp [MetricSource σ] (collector : Collector σ μ) (now : Nat) :
    (collector.cleanUp now).value.bearings = collector.bearings := by
  unfold cleanUp
  split
  · rfl
  · split
    · rfl
    · rfl

/-- After the look-up a tick leaves alone what the collector knows of its streams. -/
theorem tick_bearings [ConfigurationFetcher φ] [MetricSource σ] [NodeLister μ]
    {collector : Collector σ μ} (h : collector.options.looksUpStreams = true) (moment : Moment)
    (cache : RoutingCache φ) :
    (collector.tick moment cache).value.1.bearings =
        (collector.refreshStreams moment.now cache).value.1.bearings ∧
      (collector.tick moment cache).value.2 =
        (collector.refreshStreams moment.now cache).value.2 := by
  unfold tick
  rw [if_pos h]
  refine ⟨?_, rfl⟩
  simp only [Noted.value_bind, Noted.value_pure]
  rw [bearings_cleanUp, bearings_flushTelemetry, bearings_collectAll, bearings_refreshNodes]

/-! ## Both look-ups -/

section LookUps

variable [ConfigurationFetcher φ] (collector : Collector σ μ) (now : Nat) (cache : RoutingCache φ)

/-- What the look-up of the perf stream finds, and the cache after it. -/
def perfLookUp : RoutingCache.Resolution × RoutingCache φ :=
  (cache.outputStream Stream.perf.dataType collector.perfTag
    (now - collector.configRefreshedAt)).value

/-- When the fetcher was asked last, after the look-up of the perf stream. -/
def askedAfterPerf : Nat :=
  if (collector.perfLookUp now cache).1.fromTable then collector.configRefreshedAt else now

/-- What the look-up of the insights stream finds, and the cache after it. -/
def insightsLookUp : RoutingCache.Resolution × RoutingCache φ :=
  ((collector.perfLookUp now cache).2.outputStream Stream.insights.dataType collector.insightsTag
    (now - collector.askedAfterPerf now cache)).value

/-- Both look-ups count as ones in the table. -/
def AllFromTable : Prop :=
  (collector.perfLookUp now cache).1.fromTable = true ∧
    (collector.insightsLookUp now cache).1.fromTable = true

end LookUps

section

variable [ConfigurationFetcher φ] {collector : Collector σ μ} {now : Nat} {cache : RoutingCache φ}

theorem noteLookup_insightsTag (now : Nat) (fromTable : Bool) :
    (collector.noteLookup now fromTable).insightsTag = collector.insightsTag := by
  cases fromTable <;> rfl

theorem noteLookup_configRefreshedAt (now : Nat) (fromTable : Bool) :
    (collector.noteLookup now fromTable).configRefreshedAt =
      if fromTable then collector.configRefreshedAt else now := by
  cases fromTable <;> rfl

theorem noteLookup_policy (now : Nat) (fromTable : Bool) :
    (collector.noteLookup now fromTable).policy = collector.policy := by
  cases fromTable <;> rfl

theorem noteLookup_options (now : Nat) (fromTable : Bool) :
    (collector.noteLookup now fromTable).options = collector.options := by
  cases fromTable <;> rfl

theorem refreshStreams_options :
    (collector.refreshStreams now cache).value.1.options = collector.options := by
  simp only [refreshStreams, lookUp, Noted.value_bind, Noted.value_map, Noted.value_pure,
    noteLookup_options]

theorem refreshStreams_cache :
    (collector.refreshStreams now cache).value.2 = (collector.insightsLookUp now cache).2 := by
  simp only [refreshStreams, lookUp, Noted.value_bind, Noted.value_map, Noted.value_pure, tag,
    noteLookup_insightsTag, noteLookup_configRefreshedAt]
  rfl

theorem refreshStreams_perfTag :
    (collector.refreshStreams now cache).value.1.perfTag =
      (collector.perfLookUp now cache).1.stream :=
  rfl

theorem refreshStreams_insightsTag :
    (collector.refreshStreams now cache).value.1.insightsTag =
      (collector.insightsLookUp now cache).1.stream := by
  simp only [refreshStreams, lookUp, Noted.value_bind, Noted.value_map, Noted.value_pure, tag,
    noteLookup_insightsTag, noteLookup_configRefreshedAt]
  rfl

/-- The policy is taken over from the table unless both look-ups count as ones in it. -/
theorem refreshStreams_policy :
    (collector.refreshStreams now cache).value.1.policy =
      Policy.resolve
        (if (collector.perfLookUp now cache).1.fromTable &&
            (collector.insightsLookUp now cache).1.fromTable then none
          else (collector.insightsLookUp now cache).2.table.settings) collector.policy := by
  simp only [refreshStreams, lookUp, Noted.value_bind, Noted.value_map, Noted.value_pure, tag,
    noteLookup_insightsTag, noteLookup_configRefreshedAt, noteLookup_policy]
  rfl

theorem refreshStreams_policy_of_allFromTable (h : collector.AllFromTable now cache) :
    (collector.refreshStreams now cache).value.1.policy = collector.policy := by
  rw [refreshStreams_policy, h.1, h.2]
  rfl

theorem refreshStreams_policy_of_not_allFromTable (h : ¬ collector.AllFromTable now cache) :
    (collector.refreshStreams now cache).value.1.policy =
      Policy.resolve (collector.refreshStreams now cache).value.2.table.settings
        collector.policy := by
  have hflags : ¬ ((collector.perfLookUp now cache).1.fromTable &&
      (collector.insightsLookUp now cache).1.fromTable) = true := by
    rwa [Bool.and_eq_true]
  rw [refreshStreams_policy, if_neg hflags, refreshStreams_cache]

/-- Both look-ups count as ones in the table if that is recent and trusted for both tags.  What
is known of the tags is that ids of output streams stem from an answer. -/
theorem allFromTable_iff
    (hknown : ∀ stream, isStreamId (collector.tag stream) = true → 0 < cache.table.rebuilds) :
    collector.AllFromTable now cache ↔
      now - collector.configRefreshedAt < routingLifetime ∧
        ∀ stream, cache.table.Trusts (collector.tag stream) := by
  have hperf := RoutingCache.outputStream_fromTable_iff cache Stream.perf.dataType
    collector.perfTag (now - collector.configRefreshedAt)
  have hinsights := RoutingCache.outputStream_fromTable_iff (collector.perfLookUp now cache).2
    Stream.insights.dataType collector.insightsTag (now - collector.askedAfterPerf now cache)
  constructor
  · rintro ⟨hfirst, hsecond⟩
    obtain ⟨hrecent, htrusts⟩ := hperf.1 hfirst
    refine ⟨hrecent, fun stream => ?_⟩
    cases stream with
    | perf => exact htrusts
    | insights =>
      rcases (hinsights.1 hsecond).2 with hid | ⟨hempty, -⟩
      · exact .inl hid
      · refine .inr ⟨hempty, ?_⟩
        rcases htrusts with hid | ⟨-, hrebuilds⟩
        · exact hknown .perf hid
        · exact hrebuilds
  · rintro ⟨hrecent, htrusts⟩
    have hfirst : (collector.perfLookUp now cache).1.fromTable = true :=
      hperf.2 ⟨hrecent, htrusts .perf⟩
    refine ⟨hfirst, hinsights.2 ⟨?_, ?_⟩⟩
    · rw [askedAfterPerf, if_pos hfirst]
      exact hrecent
    · rcases htrusts .insights with hid | ⟨hempty, hrebuilds⟩
      · exact .inl hid
      · exact .inr ⟨hempty, Nat.lt_of_lt_of_le hrebuilds
          (RoutingCache.rebuilds_le_outputStream cache _ _ _)⟩

/-- If the table answers both look-ups, nothing else is asked for them. -/
theorem lookUps_of_answers
    (hperf : cache.table.Answers Stream.perf.dataType collector.perfTag
      (now - collector.configRefreshedAt))
    (hinsights : cache.table.Answers Stream.insights.dataType collector.insightsTag
      (now - collector.configRefreshedAt)) :
    collector.perfLookUp now cache = (⟨cache.table.streamOf Stream.perf.dataType, true⟩, cache) ∧
      collector.askedAfterPerf now cache = collector.configRefreshedAt ∧
      collector.insightsLookUp now cache =
        (⟨cache.table.streamOf Stream.insights.dataType, true⟩, cache) := by
  have hfirst : collector.perfLookUp now cache =
      (⟨cache.table.streamOf Stream.perf.dataType, true⟩, cache) :=
    RoutingCache.outputStream_of_answers hperf
  have hasked : collector.askedAfterPerf now cache = collector.configRefreshedAt := by
    rw [askedAfterPerf, hfirst]
    rfl
  refine ⟨hfirst, hasked, ?_⟩
  rw [insightsLookUp, hasked, hfirst]
  exact RoutingCache.outputStream_of_answers hinsights

/-- If the table is recent, trusted for both tags and knows the data types of those that are ids of
output streams, the fetcher is not asked. -/
theorem refreshStreams_cache_of_known
    (hrecent : now - collector.configRefreshedAt < routingLifetime)
    (htrusts : ∀ stream, cache.table.Trusts (collector.tag stream))
    (hknows : ∀ stream, isStreamId (collector.tag stream) = true →
      (cache.table.mapping.get? stream.dataType).isSome = true) :
    (collector.refreshStreams now cache).value.2 = cache := by
  obtain ⟨-, -, hinsights⟩ := lookUps_of_answers
    ⟨hrecent, htrusts .perf, hknows .perf⟩ ⟨hrecent, htrusts .insights, hknows .insights⟩
  rw [refreshStreams_cache, hinsights]

end

/-! ## Runs -/

/-- One tick after another. -/
def ticks [ConfigurationFetcher φ] [MetricSource σ] [NodeLister μ] (moments : List Moment)
    (task : Collector σ μ × RoutingCache φ) : Collector σ μ × RoutingCache φ :=
  moments.foldl (fun task moment => (task.1.tick moment task.2).value) task

@[simp]
theorem ticks_append [ConfigurationFetcher φ] [MetricSource σ] [NodeLister μ]
    (moments : List Moment) (moment : Moment) (task : Collector σ μ × RoutingCache φ) :
    ticks (moments ++ [moment]) task =
      ((ticks moments task).1.tick moment (ticks moments task).2).value :=
  List.foldl_append

end Collector

end PerfRelay
