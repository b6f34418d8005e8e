import PerfRelay.Proofs.Collection.Occasions
import PerfRelay.Proofs.Collection.Outage

/-!
# How old the streams of a collector are

A collector remembers when it asked for the configurations last.  A look-up of both streams either
asks, and then it remembers the present instant, or it finds both in a table that is trusted, and
then the instant that it remembers is recent.  What others do to the shared table does not matter
for that, since the age of what a collector knows is measured from its own requests.

Main results:

- Theorem `refreshStreams_asks_or_recent`: the two kinds of look-ups.
- Theorem `fetcher_tickOn`: the requests in the trace of a tick are those that the fetcher answers.
- Theorem `runOn_refreshed_recently`: after every tick of a run the instant that is remembered is
  one of a request in the run, and recent.
-/

namespace PerfRelay

/-- A look-up that does not count as one in the table asks. -/
theorem RoutingCache.fetches_of_not_fromTable {φ : Type} [ConfigurationFetcher φ]
    {cache : RoutingCache φ} {dataType tag : String} {age : Nat}
    (h : ¬ (cache.outputStream dataType tag age).value.1.fromTable = true) :
    (cache.outputStream dataType tag age).fetches = 1 := by
  apply fetches_of_not_answers
  intro hanswers
  rw [outputStream_of_answers hanswers] at h
  exact h rfl

namespace Collector

variable {σ μ φ : Type} [ConfigurationFetcher φ]

/-! ## Look-ups -/

section LookUps

variable {collector : Collector σ μ} {now : Nat} {cache : RoutingCache φ}

/-- Look-ups in the table leave alone when the fetcher was asked. -/
theorem configRefreshedAt_of_allFromTable (h : collector.AllFromTable now cache) :
    (collector.refreshStreams now cache).value.1.configRefreshedAt =
      collector.configRefreshedAt := by
  rw [refreshStreams_configRefreshedAt, if_pos h.2, askedAfterPerf, if_pos h.1]

/-- Look-ups that are not both in the table ask, and remember that they did. -/
theorem asks_of_not_allFromTable (h : ¬ collector.AllFromTable now cache) :
    0 < (collector.refreshStreams now cache).fetches ∧
      (collector.refreshStreams now cache).value.1.configRefreshedAt = now := by
  rw [fetches_refreshStreams, refreshStreams_configRefreshedAt]
  by_cases hinsights : (collector.insightsLookUp now cache).1.fromTable = true
  · have hperf : ¬ (collector.perfLookUp now cache).1.fromTable = true :=
      fun hperf => h ⟨hperf, hinsights⟩
    rw [if_pos hinsights, askedAfterPerf, if_neg hperf,
      RoutingCache.fetches_of_not_fromTable hperf]
    exact ⟨Nat.add_pos_left Nat.one_pos _, rfl⟩
  · rw [if_neg hinsights, RoutingCache.fetches_of_not_fromTable hinsights]
    exact ⟨Nat.succ_pos _, rfl⟩

/-- A look-up of both streams asks now, or the last request that is remembered is recent. -/
theorem refreshStreams_asks_or_recent (collector : Collector σ μ) (now : Nat)
    (cache : RoutingCache φ) :
    (0 < (collector.refreshStreams now cache).fetches ∧
      (collector.refreshStreams now cache).value.1.configRefreshedAt = now) ∨
    (collector.AllFromTable now cache ∧
      now - collector.configRefreshedAt < routingLifetime ∧
      (collector.refreshStreams now cache).value.1.configRefreshedAt =
        collector.configRefreshedAt) := by
  by_cases hall : collector.AllFromTable now cache
  · have hrecent := (RoutingCache.outputStream_fromTable_iff cache Stream.perf.dataType
      collector.perfTag (now - collector.configRefreshedAt)).1 hall.1
    exact .inr ⟨hall, hrecent.1, configRefreshedAt_of_allFromTable hall⟩
  · exact .inl (asks_of_not_allFromTable hall)

/-- No table is trusted for a default tag. -/
theorem not_allFromTable_of_defaultTag (h : collector.perfTag = Stream.perf.defaultTag) :
    ¬ collector.AllFromTable now cache := by
  intro hall
  have hflag := hall.1
  rw [perfLookUp, h, outputStream_defaultTag] at hflag
  exact Bool.false_ne_true hflag

end LookUps

/-! ## Ticks -/

section Ticks

variable [MetricSource σ] [NodeLister μ] {collector : Collector σ μ}

/-- What a tick on an occasion does about the streams. -/
theorem tickOn_bearings (hlooks : collector.options.looksUpStreams = true)
    (occasion : Occasion σ φ) :
    (collector.tickOn occasion).value.bearings =
      ((collector.meeting occasion).refreshStreams occasion.moment.now
        occasion.cache).value.1.bearings := by
  have hmeeting : (collector.meeting occasion).options.looksUpStreams = true := hlooks
  exact (tick_bearings hmeeting occasion.moment occasion.cache).1

theorem fetches_tickOn (hlooks : collector.options.looksUpStreams = true)
    (occasion : Occasion σ φ) :
    (collector.tickOn occasion).fetches =
      ((collector.meeting occasion).refreshStreams occasion.moment.now occasion.cache).fetches := by
  have hmeeting : (collector.meeting occasion).options.looksUpStreams = true := hlooks
  rw [Traced.fetches, tickOn, Traced.seenBy_map]
  exact fetches_tick hmeeting occasion.moment occasion.cache

theorem options_tickOn (hlooks : collector.options.looksUpStreams = true)
    (occasion : Occasion σ φ) :
    (collector.tickOn occasion).value.options = collector.options :=
  (congrArg Bearings.options (tickOn_bearings hlooks occasion)).trans refreshStreams_options

/-- The cache after a tick on an occasion. -/
def cacheAfter (collector : Collector σ μ) (occasion : Occasion σ φ) : RoutingCache φ :=
  ((collector.meeting occasion).tick occasion.moment occasion.cache).value.2

/-- The fetcher has given as many answers in a tick as there are requests in its trace. -/
theorem fetcher_tickOn (hlooks : collector.options.looksUpStreams = true)
    (occasion : Occasion σ φ) :
    (collector.cacheAfter occasion).fetcher =
      ConfigurationFetcher.afterAsks (collector.tickOn occasion).fetches
        occasion.cache.fetcher := by
  have hmeeting : (collector.meeting occasion).options.looksUpStreams = true := hlooks
  have hfetches : (collector.tickOn occasion).fetches =
      ((collector.meeting occasion).tick occasion.moment occasion.cache).fetches :=
    congrArg List.length (Traced.seenBy_map ..)
  rw [cacheAfter, fetcher_tick hmeeting, hfetches]

/-- The collector asks in a tick: requests are in the trace, and the fetcher has answered them. -/
structure Asks (collector : Collector σ μ) (occasion : Occasion σ φ) : Prop where
  noted : 0 < (collector.tickOn occasion).fetches
  answered : (collector.cacheAfter occasion).fetcher =
    ConfigurationFetcher.afterAsks (collector.tickOn occasion).fetches occasion.cache.fetcher

/-- A tick asks now, or the last request that the collector remembers is recent. -/
theorem tickOn_asks_or_recent (hlooks : collector.options.looksUpStreams = true)
    (occasion : Occasion σ φ) :
    (collector.Asks occasion ∧
      (collector.tickOn occasion).value.configRefreshedAt = occasion.moment.now) ∨
    (collector.perfTag ≠ Stream.perf.defaultTag ∧
      occasion.moment.now - collector.configRefreshedAt < routingLifetime ∧
      (collector.tickOn occasion).value.configRefreshedAt = collector.configRefreshedAt) := by
  have hbearings := congrArg Bearings.configRefreshedAt (tickOn_bearings hlooks occasion)
  rcases (collector.meeting occasion).refreshStreams_asks_or_recent occasion.moment.now
    occasion.cache with ⟨hasks, hnow⟩ | ⟨hall, hrecent, hsame⟩
  · rw [← fetches_tickOn hlooks] at hasks
    exact .inl ⟨⟨hasks, fetcher_tickOn hlooks occasion⟩, hbearings.trans hnow⟩
  · exact .inr ⟨fun htag => not_allFromTable_of_defaultTag htag hall, hrecent,
      hbearings.trans hsame⟩

end Ticks

/-! ## Runs -/

section Runs

variable [MetricSource σ] [NodeLister μ]

/-- In some tick of a run, at this instant, the collector itself asks. -/
def AsksAt (collector : Collector σ μ) (occasions : List (Occasion σ φ)) (instant : Nat) : Prop :=
  ∃ earlier asking, earlier ++ [asking] <+: occasions ∧ asking.moment.now = instant ∧
    (collector.runOn earlier).Asks asking

theorem AsksAt.append {collector : Collector σ μ} {occasions : List (Occasion σ φ)} {instant : Nat}
    (h : collector.AsksAt occasions instant) (more : List (Occasion σ φ)) :
    collector.AsksAt (occasions ++ more) instant := by
  obtain ⟨earlier, asking, hprefix, hnow, hasks⟩ := h
  exact ⟨earlier, asking, hprefix.trans (List.prefix_append _ _), hnow, hasks⟩

theorem AsksAt.exists_mem {collector : Collector σ μ} {occasions : List (Occasion σ φ)}
    {instant : Nat} (h : collector.AsksAt occasions instant) :
    ∃ asking ∈ occasions, asking.moment.now = instant := by
  obtain ⟨earlier, asking, hprefix, hnow, -⟩ := h
  exact ⟨asking, hprefix.subset (by simp), hnow⟩

variable {options : CollectorOptions}

theorem options_runOn (hlooks : options.looksUpStreams = true) (source : σ) (lister : Option μ)
    (startedAt : Nat) (occasions : List (Occasion σ φ)) :
    ((start options source lister startedAt).runOn occasions).options = options := by
  induction occasions using List.reverseRecOn with
  | nil => rfl
  | append_singleton occasions occasion ih =>
    rw [runOn_append, options_tickOn (by rw [ih, hlooks]), ih]

/-- After the first tick the instant that is remembered is one of a request.  The induction is on
the ticks: each one asks itself, or remembers what the ticks before it have left. -/
theorem asksAt_configRefreshedAt (hlooks : options.looksUpStreams = true) (source : σ)
    (lister : Option μ) (startedAt : Nat) {occasions : List (Occasion σ φ)}
    (hne : occasions ≠ []) :
    (start options source lister startedAt).AsksAt occasions
      ((start options source lister startedAt).runOn occasions).configRefreshedAt := by
  induction occasions using List.reverseRecOn with
  | nil => exact absurd rfl hne
  | append_singleton occasions occasion ih =>
    have hstill : ((start options source lister startedAt).runOn
        occasions).options.looksUpStreams = true := by
      rw [options_runOn hlooks, hlooks]
    rw [runOn_append]
    rcases tickOn_asks_or_recent hstill occasion with ⟨hasks, hnow⟩ | ⟨htag, -, hsame⟩
    · exact ⟨occasions, occasion, List.prefix_refl _, hnow.symm, hasks⟩
    · have hearlier : occasions ≠ [] := by
        rintro rfl
        exact htag rfl
      rw [hsame]
      exact (ih hearlier).append [occasion]

/-- After every tick of a run the collector remembers an instant at which it has asked itself in the
run, and that instant is recent. -/
theorem runOn_refreshed_recently (hlooks : options.looksUpStreams = true) (source : σ)
    (lister : Option μ) (startedAt : Nat) {occasions : List (Occasion σ φ)}
    {occasion : Occasion σ φ}
    (hclock : (occasions ++ [occasion]).Pairwise fun earlier later =>
      earlier.moment.now ≤ later.moment.now)
    {after : Collector σ μ}
    (hafter : (start options source lister startedAt).runOn (occasions ++ [occasion]) = after) :
    (start options source lister startedAt).AsksAt (occasions ++ [occasion])
        after.configRefreshedAt ∧
      after.configRefreshedAt ≤ occasion.moment.now ∧
      occasion.moment.now - after.configRefreshedAt < routingLifetime := by
  subst hafter
  have hasksAt := asksAt_configRefreshedAt hlooks source lister startedAt
    (List.append_ne_nil_of_right_ne_nil occasions (List.cons_ne_nil occasion []))
  refine ⟨hasksAt, ?_, ?_⟩
  · obtain ⟨asking, hmem, hnow⟩ := hasksAt.exists_mem
    rw [← hnow]
    rcases List.mem_append.1 hmem with hearlier | hlast
    · exact (List.pairwise_append.1 hclock).2.2 asking hearlier occasion (List.mem_singleton_self _)
    · obtain rfl := List.mem_singleton.1 hlast
      exact Nat.le_refl _
  · have hstill : ((start options source lister startedAt).runOn
        occasions).options.looksUpStreams = true := by
      rw [options_runOn hlooks, hlooks]
    rw [runOn_append]
    rcases tickOn_asks_or_recent hstill occasion with ⟨-, hnow⟩ | ⟨-, hrecent, hsame⟩
    · rw [hnow, Nat.sub_self]
      decide
    · rwa [hsame]

end Runs

/-- An occasion on which others have made the shared table from an answer for one of the streams,
and the fetcher has no configurations any more. -/
def othersAsked (now : Nat) : Occasion Silence FixedAnswers where
  moment := ⟨now, 0⟩
  cache := ⟨.always [], RoutingTable.empty.absorb [⟨[("LINUX_PERF_BLOB", "dcr-p")], none⟩]⟩
  meanwhile := id

/-- A new collector that looks up its streams, without remote nodes and without records. -/
def lookingUpAlone : Collector Silence Silence := start lookingUp .silence none 0

/-- Until the last microsecond the first request is the one that is remembered. -/
theorem runOn_refreshed_recently_oneRequest :
    (lookingUpAlone.runOn
        ([othersAsked 0] ++ [othersAsked (routingLifetime - 1)])).configRefreshedAt = 0 ∧
      lookingUpAlone.AsksAt ([othersAsked 0] ++ [othersAsked (routingLifetime - 1)]) 0 := by
  have hlooks : lookingUp.looksUpStreams = true := rfl
  have hclock : ([othersAsked 0] ++ [othersAsked (routingLifetime - 1)]).Pairwise
      fun earlier later => earlier.moment.now ≤ later.moment.now := by
    simp [othersAsked]
  have hremembered : (lookingUpAlone.runOn
      ([othersAsked 0] ++ [othersAsked (routingLifetime - 1)])).configRefreshedAt = 0 := by
    decide +kernel
  have hasksAt : lookingUpAlone.AsksAt ([othersAsked 0] ++ [othersAsked (routingLifetime - 1)])
      (lookingUpAlone.runOn
        ([othersAsked 0] ++ [othersAsked (routingLifetime - 1)])).configRefreshedAt :=
    (runOn_refreshed_recently hlooks Silence.silence none 0 hclock rfl).1
  rw [hremembered] at hasksAt
  exact ⟨hremembered, hasksAt⟩

end Collector

end PerfRelay
