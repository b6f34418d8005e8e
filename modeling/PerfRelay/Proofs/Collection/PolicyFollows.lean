import PerfRelay.Proofs.Collection.Bearings
import PerfRelay.Proofs.Collection.Scripts

/-!
# Policies and rebuilt tables

A collector takes over the policy of the routing table in every tick in which the fetcher is known
to have been asked.  A look-up with the id of an output stream counts as one in the table, even if
the table has lost the data type and the fetcher is asked.  A tick in which that is all that happens
keeps a policy from older settings.

Main results:

- Theorem `consistent_ticks`: what is known of the tags and the table in every run.
- Theorem `agrees_tick_iff`: what one tick does to a policy that agrees with the table.
- Theorem `agrees_along_iff`: in which runs the policy agrees with the table after every tick.
- Theorem `exists_misses`: where the fetcher is asked unnoticed, some answer makes a difference.
-/

namespace PerfRelay

/-- Making the policy again from the settings of the table changes nothing. -/
def Policy.Settled (policy : Policy) (table : RoutingTable) : Prop :=
  Policy.resolve table.settings policy = policy

instance (policy : Policy) (table : RoutingTable) : Decidable (policy.Settled table) :=
  inferInstanceAs (Decidable (Policy.resolve table.settings policy = policy))

namespace Collector

variable {σ μ φ : Type}

/-- The fetcher is asked in a tick although all look-ups count as ones in the table: that is recent
and trusted for all tags, but has lost the data type of one that is the id of an output stream. -/
structure AsksUnnoticed (collector : Collector σ μ) (now : Nat) (table : RoutingTable) : Prop where
  recent : now - collector.configRefreshedAt < routingLifetime
  trusts : ∀ stream, table.Trusts (collector.tag stream)
  lost : ∃ stream, isStreamId (collector.tag stream) = true ∧
    table.mapping.get? stream.dataType = none

/-! ## What is known of the tags -/

/-- Ids of output streams stem from an answer, and a table that no answer has made is empty. -/
structure Consistent (collector : Collector σ μ) (table : RoutingTable) : Prop where
  known : ∀ stream, isStreamId (collector.tag stream) = true → 0 < table.rebuilds
  bare : table.Bare

theorem consistent_start (options : CollectorOptions) (source : σ) (lister : Option μ) (now : Nat) :
    (start options source lister now).Consistent .empty where
  known stream hid := by
    have hdefault : isStreamId stream.defaultTag = false := by cases stream <;> decide
    have htag : (start options source lister now).tag stream = stream.defaultTag := by
      cases stream <;> rfl
    rw [htag, hdefault] at hid
    exact absurd hid Bool.false_ne_true
  bare := RoutingTable.bare_empty

section LookUps

variable [ConfigurationFetcher φ] {collector : Collector σ μ} {now : Nat} {cache : RoutingCache φ}

theorem consistent_refreshStreams (h : collector.Consistent cache.table) :
    (collector.refreshStreams now cache).value.1.Consistent
      (collector.refreshStreams now cache).value.2.table := by
  have hperf : (collector.perfLookUp now cache).2.table.Bare :=
    RoutingCache.bare_outputStream h.bare _ _ _
  have hinsights : (collector.insightsLookUp now cache).2.table.Bare :=
    RoutingCache.bare_outputStream hperf _ _ _
  rw [refreshStreams_cache]
  refine ⟨fun stream hid => ?_, hinsights⟩
  cases stream with
  | perf =>
    rw [tag, refreshStreams_perfTag, perfLookUp, RoutingCache.outputStream_stream] at hid
    exact Nat.lt_of_lt_of_le (hperf.rebuilds_pos hid)
      (RoutingCache.rebuilds_le_outputStream _ _ _ _)
  | insights =>
    rw [tag, refreshStreams_insightsTag, insightsLookUp, RoutingCache.outputStream_stream] at hid
    exact hinsights.rebuilds_pos hid

/-- What the look-ups of a tick do to a policy that agrees with the table. -/
theorem settled_refreshStreams_iff (h : collector.Consistent cache.table)
    (hsettled : collector.policy.Settled cache.table) :
    (collector.refreshStreams now cache).value.1.policy.Settled
        (collector.refreshStreams now cache).value.2.table ↔
      (collector.AsksUnnoticed now cache.table →
        collector.policy.Settled (collector.refreshStreams now cache).value.2.table) := by
  by_cases hall : collector.AllFromTable now cache
  · rw [refreshStreams_policy_of_allFromTable hall]
    refine ⟨fun hafter _ => hafter, fun hasks => ?_⟩
    obtain ⟨hrecent, htrusts⟩ := (allFromTable_iff h.known).1 hall
    by_cases hlost : ∃ stream, isStreamId (collector.tag stream) = true ∧
        cache.table.mapping.get? stream.dataType = none
    · exact hasks ⟨hrecent, htrusts, hlost⟩
    · -- The table knows every data type that it is asked for, so it stays.
      have hknows : ∀ stream, isStreamId (collector.tag stream) = true →
          (cache.table.mapping.get? stream.dataType).isSome = true := fun stream hid => by
        rw [Option.isSome_iff_ne_none]
        exact fun hnone => hlost ⟨stream, hid, hnone⟩
      rw [refreshStreams_cache_of_known hrecent htrusts hknows]
      exact hsettled
  · have hafter : (collector.refreshStreams now cache).value.1.policy.Settled
        (collector.refreshStreams now cache).value.2.table := by
      rw [Policy.Settled, refreshStreams_policy_of_not_allFromTable hall]
      exact Policy.resolve_resolve _ _
    refine iff_of_true hafter fun hasks => ?_
    exact absurd ((allFromTable_iff h.known).2 ⟨hasks.recent, hasks.trusts⟩) hall

end LookUps

/-! ## Ticks -/

section Ticks

variable [ConfigurationFetcher φ] [MetricSource σ] [NodeLister μ]

/-- The policy in force agrees with the table. -/
def Agrees (task : Collector σ μ × RoutingCache φ) : Prop :=
  task.1.policy.Settled task.2.table

instance (task : Collector σ μ × RoutingCache φ) : Decidable (Agrees task) :=
  inferInstanceAs (Decidable (task.1.policy.Settled task.2.table))

/-- In the tick at a moment the fetcher is asked unnoticed, and its answer asks for another policy
than the one in force. -/
def Misses (moment : Moment) (task : Collector σ μ × RoutingCache φ) : Prop :=
  task.1.AsksUnnoticed moment.now task.2.table ∧
    ¬ task.1.policy.Settled (task.1.tick moment task.2).value.2.table

section OneTick

variable {task : Collector σ μ × RoutingCache φ}

theorem options_tick (hlooks : task.1.options.looksUpStreams = true) (moment : Moment) :
    (task.1.tick moment task.2).value.1.options = task.1.options := by
  have hbearings := congrArg Bearings.options (tick_bearings hlooks moment task.2).1
  exact hbearings.trans refreshStreams_options

theorem consistent_tick (hlooks : task.1.options.looksUpStreams = true) (moment : Moment)
    (h : task.1.Consistent task.2.table) :
    (task.1.tick moment task.2).value.1.Consistent
      (task.1.tick moment task.2).value.2.table := by
  have htags : (task.1.tick moment task.2).value.1.tag =
      (task.1.refreshStreams moment.now task.2).value.1.tag :=
    congrArg Bearings.tag (tick_bearings hlooks moment task.2).1
  have hafter : (task.1.refreshStreams moment.now task.2).value.1.Consistent
      (task.1.refreshStreams moment.now task.2).value.2.table := consistent_refreshStreams h
  rw [(tick_bearings hlooks moment task.2).2]
  exact ⟨by rw [htags]; exact hafter.known, hafter.bare⟩

/-- A policy that agrees with the table does so after a tick, unless the tick misses another one. -/
theorem agrees_tick_iff (hlooks : task.1.options.looksUpStreams = true) (moment : Moment)
    (h : task.1.Consistent task.2.table) (hagrees : Agrees task) :
    Agrees (task.1.tick moment task.2).value ↔ ¬ Misses moment task := by
  have hpolicy : (task.1.tick moment task.2).value.1.policy =
      (task.1.refreshStreams moment.now task.2).value.1.policy :=
    congrArg Bearings.policy (tick_bearings hlooks moment task.2).1
  rw [Agrees, Misses, not_and_not_right, hpolicy, (tick_bearings hlooks moment task.2).2]
  exact settled_refreshStreams_iff h hagrees

end OneTick

/-! ## Runs -/

section Runs

/-- A new collector with a cache of its own. -/
def startAlone (options : CollectorOptions) (source : σ) (lister : Option μ) (now : Nat)
    (fetcher : φ) : Collector σ μ × RoutingCache φ :=
  (start options source lister now, .start fetcher)

variable {options : CollectorOptions} (source : σ) (lister : Option μ) (now : Nat) (fetcher : φ)

theorem consistent_ticks (hlooks : options.looksUpStreams = true) (moments : List Moment) :
    (ticks moments (startAlone options source lister now fetcher)).1.options = options ∧
      (ticks moments (startAlone options source lister now fetcher)).1.Consistent
        (ticks moments (startAlone options source lister now fetcher)).2.table := by
  induction moments using List.reverseRecOn with
  | nil => exact ⟨rfl, consistent_start options source lister now⟩
  | append_singleton moments moment ih =>
    have hstill : (ticks moments
        (startAlone options source lister now fetcher)).1.options.looksUpStreams = true := by
      rw [ih.1, hlooks]
    rw [ticks_append]
    exact ⟨(options_tick hstill moment).trans ih.1, consistent_tick hstill moment ih.2⟩

/-- The policy agrees with the table after every tick of a run, just if no tick of it misses another
policy.  The induction is on the ticks that are over. -/
theorem agrees_along_iff (hlooks : options.looksUpStreams = true) (moments : List Moment) :
    (∀ earlier, earlier <+: moments →
      Agrees (ticks earlier (startAlone options source lister now fetcher))) ↔
    ∀ earlier moment, earlier ++ [moment] <+: moments →
      ¬ Misses moment (ticks earlier (startAlone options source lister now fetcher)) := by
  have hstep : ∀ earlier moment,
      Agrees (ticks earlier (startAlone options source lister now fetcher)) →
        (Agrees (ticks (earlier ++ [moment]) (startAlone options source lister now fetcher)) ↔
          ¬ Misses moment (ticks earlier (startAlone options source lister now fetcher))) := by
    intro earlier moment hagrees
    obtain ⟨hoptions, hconsistent⟩ := consistent_ticks source lister now fetcher hlooks earlier
    have hstill : (ticks earlier
        (startAlone options source lister now fetcher)).1.options.looksUpStreams = true := by
      rw [hoptions, hlooks]
    rw [ticks_append]
    exact agrees_tick_iff hstill moment hconsistent hagrees
  constructor
  · intro hall earlier moment hprefix
    have hbefore : earlier <+: moments := (List.prefix_append earlier [moment]).trans hprefix
    exact (hstep earlier moment (hall earlier hbefore)).1 (hall _ hprefix)
  · intro hall earlier hprefix
    induction earlier using List.reverseRecOn with
    | nil => exact rfl
    | append_singleton earlier moment ih =>
      have hbefore : earlier <+: moments := (List.prefix_append earlier [moment]).trans hprefix
      exact (hstep earlier moment (ih hbefore)).2 (hall earlier moment hprefix)

end Runs

end Ticks

/-! ## A run that misses a policy -/

theorem asked_always (answer : List Configuration) (table : RoutingTable) :
    RoutingCache.asked ⟨FixedAnswers.always answer, table⟩ =
      ⟨FixedAnswers.always answer, table.absorb answer⟩ :=
  rfl

/-- Every policy differs from one that some settings ask for. -/
theorem exists_settings_ne (policy : Policy) :
    ∃ settings : Settings, settings.isEmpty = false ∧ Policy.ofSettings settings ≠ policy := by
  have hinclude : (Policy.ofSettings
      (.ofMembers [(Policy.modeName, .string "include")])).filteringMode = .include := by
    decide +kernel
  have hexclude : (Policy.ofSettings
      (.ofMembers [(Policy.modeName, .string "exclude")])).filteringMode = .exclude := by
    decide +kernel
  by_cases hmode : policy.filteringMode = .include
  · refine ⟨.ofMembers [(Policy.modeName, .string "exclude")], by decide +kernel, ?_⟩
    rintro rfl
    rw [hexclude] at hmode
    exact absurd hmode (by decide)
  · refine ⟨.ofMembers [(Policy.modeName, .string "include")], by decide +kernel, ?_⟩
    rintro rfl
    exact hmode hinclude

section Always

variable {first : Configuration} {rest : List Configuration} {table : RoutingTable}

/-- After a look-up the table has the settings of the answer that is always given, if it had them
before or did not answer itself. -/
theorem settings_outputStream {dataType tag : String} {age : Nat}
    (h : table.settings = latestSettings (first :: rest) ∨ ¬ table.Answers dataType tag age) :
    ∃ after : RoutingTable, after.settings = latestSettings (first :: rest) ∧
      (RoutingCache.outputStream ⟨FixedAnswers.always (first :: rest), table⟩
        dataType tag age).value.2 = ⟨FixedAnswers.always (first :: rest), after⟩ := by
  by_cases hanswers : table.Answers dataType tag age
  · refine ⟨table, h.resolve_right (not_not_intro hanswers), ?_⟩
    rw [RoutingCache.outputStream_of_answers hanswers]
  · refine ⟨table.absorb (first :: rest), rfl, ?_⟩
    rw [RoutingCache.outputStream_of_not_answers hanswers, asked_always]

/-- If the fetcher always gives the same answer, the table has its settings once the data type of a
tag was lost. -/
theorem settings_of_lost {collector : Collector σ μ} {now : Nat}
    (hlost : ∃ stream, isStreamId (collector.tag stream) = true ∧
      table.mapping.get? stream.dataType = none) :
    (collector.refreshStreams now ⟨FixedAnswers.always (first :: rest),
        table⟩).value.2.table.settings = latestSettings (first :: rest) := by
  have hsettings : ∀ after : RoutingTable,
      (collector.perfLookUp now ⟨FixedAnswers.always (first :: rest), table⟩).2 =
        ⟨FixedAnswers.always (first :: rest), after⟩ →
      (after.settings = latestSettings (first :: rest) ∨
        ∀ age, ¬ after.Answers Stream.insights.dataType collector.insightsTag age) →
      (collector.insightsLookUp now ⟨FixedAnswers.always (first :: rest),
        table⟩).2.table.settings = latestSettings (first :: rest) := by
    intro after hperf h
    obtain ⟨last, hlast, hvalue⟩ := settings_outputStream (h.imp_right (· _))
    rw [insightsLookUp, hperf, hvalue]
    exact hlast
  rw [refreshStreams_cache]
  by_cases hperf : table.Answers Stream.perf.dataType collector.perfTag
      (now - collector.configRefreshedAt)
  · -- The table has lost the other data type, so the second look-up asks.
    refine hsettings table (by rw [perfLookUp, RoutingCache.outputStream_of_answers hperf])
      (.inr fun age hinsights => ?_)
    obtain ⟨stream, hid, hnone⟩ := hlost
    cases stream with
    | perf =>
      have hsome := hperf.knows hid
      rw [hnone] at hsome
      exact Bool.false_ne_true hsome
    | insights =>
      have hsome := hinsights.knows hid
      rw [hnone] at hsome
      exact Bool.false_ne_true hsome
  · obtain ⟨after, hafter, hvalue⟩ := settings_outputStream (.inr hperf)
    exact hsettings after hvalue (.inl hafter)

end Always

/-- Wherever the fetcher is asked unnoticed, some answer makes the tick miss another policy. -/
theorem exists_misses [MetricSource σ] [NodeLister μ] {collector : Collector σ μ}
    {table : RoutingTable} {moment : Moment} (hlooks : collector.options.looksUpStreams = true)
    (hasks : collector.AsksUnnoticed moment.now table) :
    ∃ fetcher : FixedAnswers, Misses moment (collector, ⟨fetcher, table⟩) := by
  obtain ⟨settings, hsome, hne⟩ := exists_settings_ne collector.policy
  have hlatest : latestSettings [⟨[], some settings⟩] = some settings := by
    simp [latestSettings, Configuration.givenSettings?, hsome]
  refine ⟨.always [⟨[], some settings⟩], hasks, fun hsettled => hne ?_⟩
  have hfilter : (some settings).filter (!·.isEmpty) = some settings := by simp [hsome]
  rw [(tick_bearings hlooks moment _).2, Policy.Settled, settings_of_lost hasks.lost, hlatest,
    Policy.resolve, hfilter] at hsettled
  exact hsettled

/-- A collector of the local node that looks its streams up every minute. -/
def lookingUp : CollectorOptions := ⟨"c", true, false, 60000000, none⟩

/-- Answers in which each stream is missing once, before one with settings for both. -/
def comingAndGoing : FixedAnswers where
  answers :=
    [[⟨[("LINUX_PERF_BLOB", "dcr-p")], none⟩],
      [⟨[("INSIGHTS_METRICS_BLOB", "dcr-i")], none⟩],
      [⟨[("LINUX_PERF_BLOB", "dcr-p"), ("INSIGHTS_METRICS_BLOB", "dcr-i")],
        some (.ofMembers [("namespaceFilteringMode", .string "include")])⟩]]

/-- The two sides for a run of one tick. -/
theorem agrees_along_iff_comingAndGoing :
    lookingUp.looksUpStreams = true ∧
      ((∀ earlier, earlier <+: [⟨0, 0⟩] →
        Agrees (ticks earlier
          (startAlone (σ := Silence) (μ := Silence) lookingUp .silence none 0 comingAndGoing))) ↔
      ∀ earlier moment, earlier ++ [moment] <+: [⟨0, 0⟩] →
        ¬ Misses moment (ticks earlier
          (startAlone (σ := Silence) (μ := Silence) lookingUp .silence none 0 comingAndGoing))) :=
  ⟨rfl, agrees_along_iff _ _ _ _ rfl _⟩

/-- The second tick is answered with settings that ask for another policy, and keeps the first. -/
theorem not_agrees_comingAndGoing :
    ¬ Agrees (ticks [⟨0, 0⟩, ⟨1000000, 1⟩]
      (startAlone (σ := Silence) (μ := Silence) lookingUp .silence none 0 comingAndGoing)) := by
  decide +kernel

end Collector

end PerfRelay
