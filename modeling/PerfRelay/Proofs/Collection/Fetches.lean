import PerfRelay.Proofs.Collection.Bearings
import PerfRelay.Proofs.Collection.Concerns

/-!
# How often a collector asks for the configurations

Every request of a collector for the configurations is an event, so the events of a look-up and of a
tick tell how often the fetcher was asked.

Main results:

- Theorems `fetches_of_answers` and `fetches_of_not_answers`: a look-up with a tag in use asks once,
  or not at all if the table answers it.
- Theorem `fetches_tick`: a tick asks as often as its look-ups.
- Theorem `tick_cache_induction`: what stays true of the cache when the fetcher is asked stays true
  in a tick.
-/

namespace PerfRelay

/-! ## Counting -/

/-- A request for the configurations. -/
def Event.fetch? : Event → Option Unit
  | .fetchedConfigurations => some ()
  | _ => none

theorem Event.shows_fetch? : Shows Event.fetch? .lookUp := by
  intro event h
  cases event with
  | fetchedConfigurations => exact absurd rfl h
  | _ => rfl

/-- How often the fetcher is asked in a computation. -/
def Traced.fetches {α : Type} (x : Traced α) : Nat := (x.seenBy Event.fetch?).length

namespace RoutingCache

variable {φ : Type} [ConfigurationFetcher φ]

theorem fetches_resolveAnew (cache : RoutingCache φ) (dataType : String) :
    (cache.resolveAnew dataType).fetches = 1 := by
  have hseen : (cache.resolveAnew dataType).seenBy Event.fetch? = [()] := by
    simp only [resolveAnew, refetch, Traced.seenBy_bind, Traced.seenBy_note, Traced.seenBy_pure,
      Traced.seenBy_ofLogged Event.shows_fetch?, Traced.seenBy_logAll Event.shows_fetch?]
    rfl
  rw [Traced.fetches, hseen]
  rfl

theorem fetches_of_answers {cache : RoutingCache φ} {dataType tag : String} {age : Nat}
    (h : cache.table.Answers dataType tag age) :
    (cache.outputStream dataType tag age).fetches = 0 := by
  rw [outputStream_eq_pure h]
  rfl

theorem fetches_of_not_answers {cache : RoutingCache φ} {dataType tag : String} {age : Nat}
    (h : ¬ cache.table.Answers dataType tag age) :
    (cache.outputStream dataType tag age).fetches = 1 := by
  rw [outputStream_eq_anew h, Traced.fetches, Traced.seenBy_map]
  exact cache.fetches_resolveAnew dataType

end RoutingCache

namespace Collector

variable {σ μ φ : Type} [ConfigurationFetcher φ]

/-- A look-up of both streams asks as often as its two parts. -/
theorem fetches_refreshStreams (collector : Collector σ μ) (now : Nat) (cache : RoutingCache φ) :
    (collector.refreshStreams now cache).fetches =
      (cache.outputStream Stream.perf.dataType collector.perfTag
          (now - collector.configRefreshedAt)).fetches +
        ((collector.perfLookUp now cache).2.outputStream Stream.insights.dataType
          collector.insightsTag (now - collector.askedAfterPerf now cache)).fetches := by
  simp only [Traced.fetches, refreshStreams, lookUp, Traced.seenBy_bind, Traced.seenBy_map,
    Traced.seenBy_logAll Event.shows_fetch?, Traced.seenBy_pure, List.append_nil,
    List.length_append, Noted.value_map, tag, noteLookup_insightsTag,
    noteLookup_configRefreshedAt]
  rfl

theorem fetches_tick [MetricSource σ] [NodeLister μ] {collector : Collector σ μ}
    (h : collector.options.looksUpStreams = true) (moment : Moment) (cache : RoutingCache φ) :
    (collector.tick moment cache).fetches =
      (collector.refreshStreams moment.now cache).fetches := by
  rw [Traced.fetches, tick_lookUp Event.shows_fetch?, lookUpStreams, if_pos h]
  rfl

theorem refreshStreams_configRefreshedAt (collector : Collector σ μ) (now : Nat)
    (cache : RoutingCache φ) :
    (collector.refreshStreams now cache).value.1.configRefreshedAt =
      if (collector.insightsLookUp now cache).1.fromTable then collector.askedAfterPerf now cache
      else now := by
  simp only [refreshStreams, lookUp, Noted.value_bind, Noted.value_map, Noted.value_pure, tag,
    noteLookup_insightsTag, noteLookup_configRefreshedAt]
  rfl

/-- What holds for the cache still holds after a tick if asking the fetcher keeps it. -/
theorem tick_cache_induction [MetricSource σ] [NodeLister μ] {motive : RoutingCache φ → Prop}
    (hasked : ∀ cache, motive cache → motive cache.asked) (collector : Collector σ μ)
    (moment : Moment) {cache : RoutingCache φ} (h : motive cache) :
    motive (collector.tick moment cache).value.2 := by
  have hlookUp : ∀ {cache : RoutingCache φ}, motive cache → ∀ dataType tag age,
      motive (cache.outputStream dataType tag age).value.2 := by
    intro cache h dataType tag age
    rcases cache.outputStream_cache dataType tag age with hcache | hcache
    · rwa [hcache]
    · rw [hcache]
      exact hasked cache h
  by_cases hlooks : collector.options.looksUpStreams = true
  · rw [(tick_bearings hlooks moment cache).2, refreshStreams_cache]
    exact hlookUp (hlookUp h _ _ _) _ _ _
  · have hcache : (collector.tick moment cache).value.2 = cache := by
      unfold tick
      rw [if_neg hlooks]
      rfl
    rwa [hcache]

end Collector

end PerfRelay
