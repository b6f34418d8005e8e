import Mathlib.Data.List.Induction
import Mathlib.Logic.Function.Basic
import PerfRelay.Proofs.Collection.Convergence
import PerfRelay.Proofs.Collection.Scripts

/-!
# Collectors that share a cache whose configurations stay the same

Any number of collectors tick one after another and share a cache.  The table that a collector finds
may be younger than its last request, since others ask too; what counts is when it asked itself.

Main results:

- Theorem `Steady.stands`: what a collector knows after any of its ticks.
- Theorem `Steady.run_converges`: how often a collector asks in each of its ticks, and its streams
  and policy after that.
-/

namespace PerfRelay

open ConfigurationFetcher (AlwaysAnswers)

/-- Collectors that share a cache. -/
structure Fleet (ι σ μ φ : Type) where
  collectors : ι → Collector σ μ
  cache : RoutingCache φ

namespace Fleet

/-- One collector ticks at a moment. -/
structure Turn (ι : Type) where
  who : ι
  moment : Moment

variable {ι σ μ φ : Type} [DecidableEq ι] [ConfigurationFetcher φ] [MetricSource σ]
  [NodeLister μ]

/-- What the tick of a collector leads to. -/
def tick (fleet : Fleet ι σ μ φ) (turn : Turn ι) : Traced (Fleet ι σ μ φ) :=
  (fun (collector, cache) => ⟨Function.update fleet.collectors turn.who collector, cache⟩) <$>
    (fleet.collectors turn.who).tick turn.moment fleet.cache

/-- What the ticks of some collectors lead to, one after another. -/
def run (fleet : Fleet ι σ μ φ) (turns : List (Turn ι)) : Fleet ι σ μ φ :=
  turns.foldl (fun fleet turn => (fleet.tick turn).value) fleet

/-- The instants of the ticks in which a collector asks, the first one first. -/
def fetchInstants (who : ι) : Fleet ι σ μ φ → List (Turn ι) → List Nat
  | _, [] => []
  | fleet, turn :: turns =>
    (if turn.who = who ∧ 0 < (fleet.tick turn).fetches then [turn.moment.now] else []) ++
      fetchInstants who (fleet.tick turn).value turns

/-- A new collector that looks up its streams, and a cache whose fetcher always gives the same
answer, with configurations that route the streams to output streams or to none. -/
structure Steady (fleet : Fleet ι σ μ φ) (who : ι) (answer : List Configuration) : Prop where
  isNew : ∃ options source lister now,
    fleet.collectors who = .start options source lister now ∧ options.looksUpStreams = true
  alwaysAnswers : AlwaysAnswers fleet.cache.fetcher answer
  answer_ne_nil : answer ≠ []
  routes : Routes answer

@[simp]
theorem run_append (fleet : Fleet ι σ μ φ) (turns : List (Turn ι)) (turn : Turn ι) :
    fleet.run (turns ++ [turn]) = ((fleet.run turns).tick turn).value :=
  List.foldl_append

theorem fetches_tick (fleet : Fleet ι σ μ φ) (turn : Turn ι) :
    (fleet.tick turn).fetches =
      ((fleet.collectors turn.who).tick turn.moment fleet.cache).fetches := by
  rw [Traced.fetches, tick, Traced.seenBy_map]
  rfl

theorem collectors_tick_self (fleet : Fleet ι σ μ φ) (turn : Turn ι) :
    (fleet.tick turn).value.collectors turn.who =
      ((fleet.collectors turn.who).tick turn.moment fleet.cache).value.1 :=
  Function.update_self ..

theorem collectors_tick_of_ne (fleet : Fleet ι σ μ φ) {turn : Turn ι} {who : ι}
    (h : turn.who ≠ who) : (fleet.tick turn).value.collectors who = fleet.collectors who :=
  Function.update_of_ne h.symm ..

theorem fetchInstants_append (who : ι) (fleet : Fleet ι σ μ φ) (turns : List (Turn ι))
    (turn : Turn ι) :
    fetchInstants who fleet (turns ++ [turn]) =
      fetchInstants who fleet turns ++
        if turn.who = who ∧ 0 < ((fleet.run turns).tick turn).fetches then [turn.moment.now]
        else [] := by
  induction turns generalizing fleet with
  | nil =>
    rw [List.nil_append, fetchInstants]
    exact List.append_nil _
  | cons first turns ih =>
    rw [List.cons_append, fetchInstants, fetchInstants, ih, List.append_assoc]
    rfl

variable {fleet : Fleet ι σ μ φ} {who : ι} {answer : List Configuration}

/-! ## Runs -/

theorem alwaysAnswers_run (hanswer : answer ≠ [])
    (h : AlwaysAnswers fleet.cache.fetcher answer) (turns : List (Turn ι)) :
    AlwaysAnswers (fleet.run turns).cache.fetcher answer := by
  induction turns using List.reverseRecOn with
  | nil => exact h
  | append_singleton turns turn ih =>
    rw [run_append]
    exact Collector.tick_cache_induction
      (motive := fun cache => AlwaysAnswers cache.fetcher answer)
      (fun _ h => (RoutingCache.asked_of_alwaysAnswers hanswer h).1) _ _ ih

theorem collectors_run_of_not_mem {turns : List (Turn ι)} (h : who ∉ turns.map Turn.who) :
    (fleet.run turns).collectors who = fleet.collectors who := by
  induction turns using List.reverseRecOn with
  | nil => rfl
  | append_singleton turns turn ih =>
    rw [List.map_append, List.mem_append, not_or] at h
    have hother : turn.who ≠ who := fun heq => h.2 (by simp [heq])
    rw [run_append, collectors_tick_of_ne _ hother, ih h.1]

/-- The first tick of a collector. -/
theorem Steady.first_tick (h : fleet.Steady who answer) {turns : List (Turn ι)}
    (hnever : who ∉ turns.map Turn.who) (moment : Moment) :
    Collector.Refreshes (((fleet.run turns).collectors who).tick moment (fleet.run turns).cache)
      answer (fleet.collectors who).policy 2 moment.now := by
  obtain ⟨options, source, lister, now, hstart, hlooks⟩ := h.isNew
  have hcollector : (fleet.run turns).collectors who = .start options source lister now :=
    (collectors_run_of_not_mem hnever).trans hstart
  have htag : ∀ stream,
      (Collector.start options source lister now).tag stream = stream.defaultTag := by
    intro stream
    cases stream with
    | perf => rfl
    | insights => rfl
  rw [hcollector, hstart]
  exact (Collector.refreshStreams_untagged h.answer_ne_nil
    (alwaysAnswers_run h.answer_ne_nil h.alwaysAnswers turns) hlooks htag _).tick hlooks

/-- A collector that has ticked has taken over the answer, and knows when it asked last. -/
structure Stands (fleet : Fleet ι σ μ φ) (who : ι) (answer : List Configuration) (first : Policy)
    (instants : List Nat) : Prop where
  settled : (fleet.collectors who).Settled answer first
  holds : fleet.cache.table.Holds answer
  getLast?_eq : instants.getLast? = some (fleet.collectors who).configRefreshedAt

/-- A tick of the collector itself, in which it asks now or remembers the last time. -/
theorem Stands.own {turn : Turn ι} {first : Policy} {fetches asked : Nat} {instants : List Nat}
    (hown : turn.who = who)
    (h : Collector.Refreshes ((fleet.collectors who).tick turn.moment fleet.cache) answer first
      fetches asked)
    (hlast : (instants ++ if 0 < fetches then [turn.moment.now] else []).getLast? =
      some asked) :
    Stands (fleet.tick turn).value who answer first
      (instants ++
        if turn.who = who ∧ 0 < (fleet.tick turn).fetches then [turn.moment.now] else []) := by
  subst hown
  refine ⟨?_, h.holds, ?_⟩
  · rw [collectors_tick_self]
    exact h.settled
  · rw [collectors_tick_self, h.asked_eq, fetches_tick, h.fetches_eq]
    simpa only [true_and] using hlast

/-- A tick of another collector. -/
theorem Stands.other (hanswer : answer ≠ []) (halways : AlwaysAnswers fleet.cache.fetcher answer)
    {first : Policy} {instants : List Nat} (h : fleet.Stands who answer first instants)
    {turn : Turn ι} (hother : turn.who ≠ who) :
    Stands (fleet.tick turn).value who answer first
      (instants ++
        if turn.who = who ∧ 0 < (fleet.tick turn).fetches then [turn.moment.now] else []) := by
  have hcache : AlwaysAnswers (fleet.tick turn).value.cache.fetcher answer ∧
      (fleet.tick turn).value.cache.table.Holds answer :=
    Collector.tick_cache_induction
      (motive := fun cache => AlwaysAnswers cache.fetcher answer ∧ cache.table.Holds answer)
      (fun _ h => RoutingCache.asked_of_alwaysAnswers hanswer h.1) _ _ ⟨halways, h.holds⟩
  refine ⟨?_, hcache.2, ?_⟩
  · rw [collectors_tick_of_ne _ hother]
    exact h.settled
  · rw [collectors_tick_of_ne _ hother, if_neg fun hown => hother hown.1, List.append_nil]
    exact h.getLast?_eq

omit [DecidableEq ι] in
/-- A later tick of a collector. -/
theorem Stands.tick (hanswer : answer ≠ []) (hroutes : Routes answer)
    (halways : AlwaysAnswers fleet.cache.fetcher answer) {first : Policy} {instants : List Nat}
    (h : fleet.Stands who answer first instants) (moment : Moment) :
    ∃ last, instants.getLast? = some last ∧
      Collector.Refreshes ((fleet.collectors who).tick moment fleet.cache) answer first
        (if last + routingLifetime ≤ moment.now then 1 else 0)
        (if last + routingLifetime ≤ moment.now then moment.now else last) :=
  ⟨_, h.getLast?_eq, h.settled.tick hanswer hroutes halways h.holds moment⟩

/-- The induction is on the ticks that are over.  Ticks of others only ever leave a table that stems
from the same answer. -/
theorem Steady.stands (h : fleet.Steady who answer) {turns : List (Turn ι)}
    (hticked : who ∈ turns.map Turn.who) :
    (fleet.run turns).Stands who answer (fleet.collectors who).policy
      (fetchInstants who fleet turns) := by
  induction turns using List.reverseRecOn with
  | nil => cases hticked
  | append_singleton turns turn ih =>
    have halways := alwaysAnswers_run h.answer_ne_nil h.alwaysAnswers turns
    rw [run_append, fetchInstants_append]
    by_cases hown : turn.who = who
    · by_cases hearlier : who ∈ turns.map Turn.who
      · obtain ⟨last, hlast, htick⟩ :=
          (ih hearlier).tick h.answer_ne_nil h.routes halways turn.moment
        apply Stands.own hown htick
        by_cases hold : last + routingLifetime ≤ turn.moment.now
        · simp [hold]
        · simpa [hold] using hlast
      · apply Stands.own hown (h.first_tick hearlier turn.moment)
        simp
    · have hearlier : who ∈ turns.map Turn.who := by
        rw [List.map_append, List.mem_append] at hticked
        exact hticked.resolve_right fun hlast => hown (List.mem_singleton.1 hlast).symm
      exact (ih hearlier).other h.answer_ne_nil halways hown

/-- The first tick of a collector asks twice.  A later one asks once if the last one of its ticks
that asked is too long ago, and else not at all.  After every tick the collector has the output
streams of the answer, and the policy that its settings make of the first one. -/
theorem Steady.run_converges (h : fleet.Steady who answer) (turns : List (Turn ι))
    (moment : Moment) :
    (who ∉ turns.map Turn.who → ((fleet.run turns).tick ⟨who, moment⟩).fetches = 2) ∧
      (who ∈ turns.map Turn.who → ∃ last,
        (fetchInstants who fleet turns).getLast? = some last ∧
          ((fleet.run turns).tick ⟨who, moment⟩).fetches =
            if last + routingLifetime ≤ moment.now then 1 else 0) ∧
      (∀ stream, ((fleet.run (turns ++ [⟨who, moment⟩])).collectors who).tag stream =
        ((streamMapping answer).get? stream.dataType).getD "") ∧
      ((fleet.run (turns ++ [⟨who, moment⟩])).collectors who).policy =
        Policy.resolve (latestSettings answer) (fleet.collectors who).policy := by
  have hafter : (fleet.run (turns ++ [⟨who, moment⟩])).Stands who answer
      (fleet.collectors who).policy (fetchInstants who fleet (turns ++ [⟨who, moment⟩])) :=
    h.stands (by simp)
  refine ⟨?_, ?_, hafter.settled.tag_eq, hafter.settled.policy_eq⟩
  · intro hnever
    rw [fetches_tick]
    exact (h.first_tick hnever moment).fetches_eq
  · intro hticked
    have halways := alwaysAnswers_run h.answer_ne_nil h.alwaysAnswers turns
    obtain ⟨last, hlast, htick⟩ :=
      (h.stands hticked).tick h.answer_ne_nil h.routes halways moment
    refine ⟨last, hlast, ?_⟩
    rw [fetches_tick]
    exact htick.fetches_eq

/-! ## Two collectors -/

theorem alwaysAnswers_always (answer : List Configuration) :
    AlwaysAnswers (Collector.FixedAnswers.always answer) answer := by
  have hsame : ∀ asks,
      ConfigurationFetcher.afterAsks asks (Collector.FixedAnswers.always answer) =
        .always answer := by
    intro asks
    induction asks with
    | zero => rfl
    | succ asks ih => exact ih
  intro asks
  rw [hsame]
  rfl

/-- An answer that routes one of the streams. -/
def perfOnly : List Configuration := [⟨[(Stream.perf.dataType, "dcr-p")], none⟩]

/-- Two collectors that look up their streams, and a fetcher that always gives that answer. -/
def ofTwo : Fleet Bool Collector.Silence Collector.Silence Collector.FixedAnswers where
  collectors _ := .start ⟨"c", true, false, 60000000, none⟩ .silence none 0
  cache := .start (.always perfOnly)

theorem steady_ofTwo (who : Bool) : ofTwo.Steady who perfOnly := by
  have hperf : (streamMapping perfOnly).get? Stream.perf.dataType = some "dcr-p" := by
    decide +kernel
  have hinsights : (streamMapping perfOnly).get? Stream.insights.dataType = none := by
    decide +kernel
  refine ⟨⟨_, _, _, _, rfl, rfl⟩, alwaysAnswers_always perfOnly, nofun, ?_⟩
  intro stream id hid
  cases stream with
  | perf =>
    rw [hperf, Option.some.injEq] at hid
    subst hid
    exact .inr (by decide)
  | insights =>
    rw [hinsights] at hid
    cases hid

/-- A collector has the answer fetched again after 300 seconds, although the other one had it
fetched in between. -/
theorem run_converges_ofTwo :
    ofTwo.Steady true perfOnly ∧
      ((ofTwo.run [⟨true, ⟨0, 0⟩⟩, ⟨false, ⟨200000000, 200⟩⟩]).tick
        ⟨true, ⟨300000000, 300⟩⟩).fetches = 1 := by
  refine ⟨steady_ofTwo true, ?_⟩
  obtain ⟨-, hlater, -⟩ := (steady_ofTwo true).run_converges
    [⟨true, ⟨0, 0⟩⟩, ⟨false, ⟨200000000, 200⟩⟩] ⟨300000000, 300⟩
  obtain ⟨last, hlast, hfetches⟩ := hlater (by simp)
  have hfirst : fetchInstants true ofTwo [⟨true, ⟨0, 0⟩⟩, ⟨false, ⟨200000000, 200⟩⟩] = [0] := by
    decide +kernel
  rw [hfirst] at hlast
  cases hlast
  exact hfetches

end Fleet

end PerfRelay
