import Mathlib.Tactic.IntervalCases
import PerfRelay.Proofs.Collection.Convergence
import PerfRelay.Proofs.Collection.PolicyFollows

/-!
# A collector whose fetcher has no configurations

While the fetcher gives no configurations, a collector keeps the streams and the policy that it has,
and its cache keeps the table.  The collector goes on asking: for a tag that is not the id of an
output stream in every tick, and for the others when the last request is too old.  How often it asks
shows in the events, and only these requests have to go unanswered.

Main results:

- Theorem `fetcher_tick`: the requests that the events of a tick show are all that there are.
- Theorem `tick_unanswered`: what a tick keeps if its requests get no configurations.
- Theorem `ticks_unanswered`: the same for any number of ticks.
-/

namespace PerfRelay

/-! ## Requests without configurations -/

namespace ConfigurationFetcher

variable {φ : Type} [ConfigurationFetcher φ] {fetcher : φ} {first second : Nat}

/-- The fetcher gives no configurations in the next so many requests. -/
def NoneFor (fetcher : φ) (asks : Nat) : Prop :=
  ∀ earlier < asks, (fetch (afterAsks earlier fetcher)).value.1 = []

theorem afterAsks_add (first second : Nat) (fetcher : φ) :
    afterAsks (first + second) fetcher = afterAsks second (afterAsks first fetcher) := by
  induction first generalizing fetcher with
  | zero => rw [Nat.zero_add, afterAsks]
  | succ first ih => rw [Nat.succ_add, afterAsks, afterAsks, ih]

theorem NoneFor.left (h : NoneFor fetcher (first + second)) : NoneFor fetcher first :=
  fun earlier hearlier => h earlier (by omega)

theorem NoneFor.right (h : NoneFor fetcher (first + second)) :
    NoneFor (afterAsks first fetcher) second := by
  intro earlier hearlier
  rw [← afterAsks_add]
  exact h (first + earlier) (by omega)

end ConfigurationFetcher

open ConfigurationFetcher (NoneFor afterAsks afterAsks_add)

/-! ## One look-up -/

namespace RoutingCache

variable {φ : Type} [ConfigurationFetcher φ]

/-- The requests that the events of a look-up show are all that there are. -/
theorem fetcher_outputStream (cache : RoutingCache φ) (dataType tag : String) (age : Nat) :
    (cache.outputStream dataType tag age).value.2.fetcher =
      afterAsks (cache.outputStream dataType tag age).fetches cache.fetcher := by
  by_cases h : cache.table.Answers dataType tag age
  · rw [outputStream_of_answers h, fetches_of_answers h, afterAsks]
  · rw [outputStream_of_not_answers h, fetches_of_not_answers h]
    rfl

/-- A look-up that gets no configurations keeps the table. -/
theorem table_outputStream {cache : RoutingCache φ} {dataType tag : String} {age : Nat}
    (h : NoneFor cache.fetcher (cache.outputStream dataType tag age).fetches) :
    (cache.outputStream dataType tag age).value.2.table = cache.table := by
  by_cases hanswers : cache.table.Answers dataType tag age
  · rw [outputStream_of_answers hanswers]
  · rw [fetches_of_not_answers hanswers] at h
    have hnone : cache.nextAnswer.1 = [] := h 0 Nat.one_pos
    rw [outputStream_of_not_answers hanswers, asked, hnone, RoutingTable.absorb_nil]

end RoutingCache

/-! ## Both look-ups -/

namespace Collector

variable {σ μ φ : Type}

/-- The tags are the output streams in the table, and the policy agrees with its settings. -/
structure InForce (collector : Collector σ μ) (table : RoutingTable) : Prop where
  tag_eq : ∀ stream, collector.tag stream = table.streamOf stream.dataType
  settled : collector.policy.Settled table

/-- The streams, the policy and the table are the same, and so are the choices. -/
structure Keeps (before after : Collector σ μ × RoutingCache φ) : Prop where
  options_eq : after.1.options = before.1.options
  tag_eq : after.1.tag = before.1.tag
  policy_eq : after.1.policy = before.1.policy
  table_eq : after.2.table = before.2.table

theorem Keeps.refl (task : Collector σ μ × RoutingCache φ) : Keeps task task :=
  ⟨rfl, rfl, rfl, rfl⟩

theorem Keeps.trans {first second third : Collector σ μ × RoutingCache φ}
    (h : Keeps first second) (h' : Keeps second third) : Keeps first third where
  options_eq := h'.options_eq.trans h.options_eq
  tag_eq := h'.tag_eq.trans h.tag_eq
  policy_eq := h'.policy_eq.trans h.policy_eq
  table_eq := h'.table_eq.trans h.table_eq

theorem Keeps.inForce {before after : Collector σ μ × RoutingCache φ} (h : Keeps before after)
    (hinForce : before.1.InForce before.2.table) : after.1.InForce after.2.table := by
  refine ⟨fun stream => ?_, ?_⟩
  · rw [h.tag_eq, h.table_eq]
    exact hinForce.tag_eq stream
  · rw [h.policy_eq, h.table_eq]
    exact hinForce.settled

section LookUps

variable [ConfigurationFetcher φ] {collector : Collector σ μ} {now : Nat} {cache : RoutingCache φ}

theorem fetcher_refreshStreams (collector : Collector σ μ) (now : Nat) (cache : RoutingCache φ) :
    (collector.refreshStreams now cache).value.2.fetcher =
      afterAsks (collector.refreshStreams now cache).fetches cache.fetcher := by
  rw [refreshStreams_cache, fetches_refreshStreams, afterAsks_add, insightsLookUp,
    RoutingCache.fetcher_outputStream, perfLookUp, RoutingCache.fetcher_outputStream]

/-- Look-ups that get no configurations give the streams in the table, and its settings lead to the
same policy again. -/
theorem refreshStreams_unanswered (hinForce : collector.InForce cache.table)
    (h : NoneFor cache.fetcher (collector.refreshStreams now cache).fetches) :
    Keeps (collector, cache) (collector.refreshStreams now cache).value := by
  rw [fetches_refreshStreams] at h
  have hperf : (collector.perfLookUp now cache).2.table = cache.table :=
    RoutingCache.table_outputStream h.left
  have hinsights : (collector.insightsLookUp now cache).2.table = cache.table := by
    have hright := h.right
    rw [← RoutingCache.fetcher_outputStream] at hright
    exact (RoutingCache.table_outputStream hright).trans hperf
  have htable : (collector.refreshStreams now cache).value.2.table = cache.table := by
    rw [refreshStreams_cache, hinsights]
  refine ⟨refreshStreams_options, funext fun stream => ?_, ?_, htable⟩
  · cases stream with
    | perf =>
      have hstream : (collector.perfLookUp now cache).1.stream =
          (collector.perfLookUp now cache).2.table.streamOf Stream.perf.dataType :=
        cache.outputStream_stream _ _ _
      rw [tag, refreshStreams_perfTag, hstream, hperf, hinForce.tag_eq]
    | insights =>
      have hstream : (collector.insightsLookUp now cache).1.stream =
          (collector.insightsLookUp now cache).2.table.streamOf Stream.insights.dataType :=
        (collector.perfLookUp now cache).2.outputStream_stream _ _ _
      rw [tag, refreshStreams_insightsTag, hstream, hinsights, hinForce.tag_eq]
  · by_cases hall : collector.AllFromTable now cache
    · exact refreshStreams_policy_of_allFromTable hall
    · rw [refreshStreams_policy_of_not_allFromTable hall, htable]
      exact hinForce.settled

end LookUps

/-! ## Ticks -/

section Ticks

variable [ConfigurationFetcher φ] [MetricSource σ] [NodeLister μ]

/-- The requests that the events of a tick show are all that there are. -/
theorem fetcher_tick {collector : Collector σ μ} (hlooks : collector.options.looksUpStreams = true)
    (moment : Moment) (cache : RoutingCache φ) :
    (collector.tick moment cache).value.2.fetcher =
      afterAsks (collector.tick moment cache).fetches cache.fetcher := by
  rw [(tick_bearings hlooks moment cache).2, fetches_tick hlooks]
  exact collector.fetcher_refreshStreams moment.now cache

/-- A tick whose requests get no configurations keeps streams, policy and table. -/
theorem tick_unanswered {collector : Collector σ μ} {cache : RoutingCache φ}
    (hlooks : collector.options.looksUpStreams = true) (hinForce : collector.InForce cache.table)
    {moment : Moment} (h : NoneFor cache.fetcher (collector.tick moment cache).fetches) :
    Keeps (collector, cache) (collector.tick moment cache).value := by
  obtain ⟨hbearings, hcache⟩ := tick_bearings hlooks moment cache
  rw [fetches_tick hlooks] at h
  have hkeeps := refreshStreams_unanswered hinForce h
  exact ⟨(congrArg Bearings.options hbearings).trans hkeeps.options_eq,
    (congrArg Bearings.tag hbearings).trans hkeeps.tag_eq,
    (congrArg Bearings.policy hbearings).trans hkeeps.policy_eq,
    (congrArg RoutingCache.table hcache).trans hkeeps.table_eq⟩

/-- How often the fetcher is asked in some ticks, one after another. -/
def fetchesIn : List Moment → Collector σ μ × RoutingCache φ → Nat
  | [], _ => 0
  | moment :: moments, task =>
    (task.1.tick moment task.2).fetches + fetchesIn moments (task.1.tick moment task.2).value

/-- As long as the requests get no configurations, ticks at any instants keep the streams and the
policy of a collector and the table.  The induction is on the ticks: what one of them keeps is all
that the next one needs. -/
theorem ticks_unanswered {task : Collector σ μ × RoutingCache φ}
    (hlooks : task.1.options.looksUpStreams = true) (hinForce : task.1.InForce task.2.table)
    {moments : List Moment} (h : NoneFor task.2.fetcher (fetchesIn moments task)) :
    (∀ stream, (ticks moments task).1.tag stream = task.1.tag stream) ∧
      (ticks moments task).1.policy = task.1.policy ∧
      (ticks moments task).2.table = task.2.table := by
  have hkeeps : Keeps task (ticks moments task) := by
    induction moments generalizing task with
    | nil => exact .refl task
    | cons moment moments ih =>
      have hfirst : Keeps task (task.1.tick moment task.2).value :=
        tick_unanswered hlooks hinForce h.left
      have hstill : (task.1.tick moment task.2).value.1.options.looksUpStreams = true := by
        rw [hfirst.options_eq, hlooks]
      have hright := h.right
      rw [← fetcher_tick hlooks] at hright
      exact hfirst.trans (ih hstill (hfirst.inForce hinForce) hright)
  exact ⟨congrFun hkeeps.tag_eq, hkeeps.policy_eq, hkeeps.table_eq⟩

end Ticks

/-- Routes to an output stream and to another tag, with settings. -/
def mixedTable : RoutingTable :=
  RoutingTable.empty.absorb
    [⟨[("LINUX_PERF_BLOB", "dcr-p"), ("INSIGHTS_METRICS_BLOB", "i")],
      some (.ofMembers [("namespaceFilteringMode", .string "include")])⟩]

/-- A collector with that table, and a fetcher that has configurations from the fourth request
on. -/
def cutOff : Collector Silence Silence × RoutingCache FixedAnswers :=
  ({ (start lookingUp .silence none 0) with
      policy := Policy.resolve mixedTable.settings (.initial 60)
      perfTag := "dcr-p"
      insightsTag := "i" }, ⟨⟨[[], [], [], [.empty]]⟩, mixedTable⟩)

/-- Three requests in two ticks, one of them for an output stream whose last look-up is too old. -/
theorem ticks_unanswered_cutOff :
    fetchesIn [⟨0, 0⟩, ⟨routingLifetime, 300⟩] cutOff = 3 ∧
      (ticks [⟨0, 0⟩, ⟨routingLifetime, 300⟩] cutOff).1.policy = cutOff.1.policy ∧
      (ticks [⟨0, 0⟩, ⟨routingLifetime, 300⟩] cutOff).2.table = cutOff.2.table := by
  have hasked : fetchesIn [⟨0, 0⟩, ⟨routingLifetime, 300⟩] cutOff = 3 := by decide +kernel
  have hnone : NoneFor cutOff.2.fetcher (fetchesIn [⟨0, 0⟩, ⟨routingLifetime, 300⟩] cutOff) := by
    rw [hasked]
    intro earlier hearlier
    interval_cases earlier
    · rfl
    · rfl
    · rfl
  have hinForce : cutOff.1.InForce cutOff.2.table := by
    refine ⟨fun stream => ?_, Policy.resolve_resolve mixedTable.settings (.initial 60)⟩
    cases stream with
    | perf => decide +kernel
    | insights => decide +kernel
  exact ⟨hasked, (ticks_unanswered rfl hinForce hnone).2⟩

end Collector

end PerfRelay
