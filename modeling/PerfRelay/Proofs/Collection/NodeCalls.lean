import Mathlib.Data.List.Induction
import PerfRelay.Proofs.Collection.Output
import PerfRelay.Proofs.Collection.Recorded
import PerfRelay.Proofs.Collection.Scripts

/-!
# When nodes are listed, asked and forgotten

A collector of remote nodes lists them in its first tick and from then on whenever the last attempt
is long enough ago, whatever it led to.  The nodes of the last listing that succeeded are asked in
their order, and from time to time the source is told which ones they are.  All of it shows in the
trace, and the traces so far decide what the next tick does.  A source and a lister that keep a
record of their calls have received the calls in the trace and no other ones.

Main results:

- Theorem `Follows.tickOn`: one tick in terms of the attempts and clean-ups before it.
- Theorem `receives_tickOn`: the calls in the trace of a tick are those that are received.
- Theorem `nodeCalls_runOn`: the calls of every tick of a run.
-/

namespace PerfRelay

/-! ## The answers of a lister -/

namespace NodeLister

variable {μ : Type} [NodeLister μ]

/-- A lister after so many listings. -/
def after (lister : μ) : Nat → μ
  | 0 => lister
  | n + 1 => (NodeLister.list (after lister n)).value.2

/-- What a lister answers after so many other listings. -/
def answer (lister : μ) (n : Nat) : Except Failure (List String) :=
  (NodeLister.list (after lister n)).value.1

/-- The nodes of the last listing that has succeeded among so many ones. -/
def known (lister : μ) : Nat → List String
  | 0 => []
  | n + 1 =>
    match answer lister n with
    | .ok nodes => nodes
    | .error _ => known lister n

theorem known_of_ok {lister : μ} {n : Nat} {nodes : List String}
    (h : answer lister n = .ok nodes) : known lister (n + 1) = nodes := by
  rw [known, h]

theorem known_of_error {lister : μ} {n : Nat} {failure : Failure}
    (h : answer lister n = .error failure) : known lister (n + 1) = known lister n := by
  rw [known, h]

end NodeLister

namespace Collector

variable {σ μ φ : Type}

/-! ## What is to be called -/

/-- Whether it is time for a listing, in view of the attempts so far. -/
def listingIsDue (attempts : List Nat) (now : Nat) : Bool :=
  attempts.getLast?.all fun earlier => earlier + nodeLifetime ≤ now

/-- Whether it is time for a clean-up, in view of the ones so far. -/
def cleanupIsDue (startedAt : Nat) (cleanups : List Nat) (now : Nat) : Bool :=
  cleanups.getLast?.getD startedAt + cleanupInterval ≤ now

/-- The attempts after a tick. -/
def attemptsAfter (attempts : List Nat) (now : Nat) : List Nat :=
  attempts ++ if listingIsDue attempts now then [now] else []

/-- The clean-ups after a tick. -/
def cleanupsAfter (startedAt : Nat) (cleanups : List Nat) (now : Nat) : List Nat :=
  cleanups ++ if cleanupIsDue startedAt cleanups now then [now] else []

/-- The calls that bring the list of nodes up to date: a listing if it is time, and a reset if it
succeeds. -/
def listingCalls [NodeLister μ] (lister : μ) (attempts : List Nat) (now : Nat) : List Call :=
  if listingIsDue attempts now then
    if (NodeLister.answer lister attempts.length).isOk then [.list, .reset] else [.list]
  else []

/-- The calls that collect from some targets. -/
def askingCalls (targets : List (Option String)) : List Call :=
  targets.flatMap fun node => [.ask .perf node, .ask .insights node]

/-- The call that cleans up, if it is time. -/
def cleanupCalls (startedAt : Nat) (cleanups : List Nat) (now : Nat) (nodes : List String) :
    List Call :=
  if cleanupIsDue startedAt cleanups now then [.prune nodes] else []

/-! ## The parts of a tick -/

section Parts

variable [MetricSource σ]

/-- The upkeep while the list of nodes is brought up to date. -/
theorem seenBy_refreshIfDue [NodeLister μ] (registry : NodeRegistry μ) (now : Nat) (source : σ) :
    (registry.refreshIfDue now source).seenBy Event.upkeep? =
      if registry.isDue now then
        (if registry.nextAnswer.isOk then [.list, .reset] else [.list])
      else [] := by
  by_cases hdue : registry.isDue now = true
  · rw [NodeRegistry.refreshIfDue, if_pos hdue, if_pos hdue]
    simp only [NodeRegistry.refresh, Traced.seenBy_bind, Traced.seenBy_note,
      Traced.seenBy_ofLogged Event.shows_upkeep?]
    rw [NodeRegistry.nextAnswer, Traced.ofLogged, Noted.value_mapNotes]
    cases (NodeLister.list registry.lister).value.1 with
    | ok nodes =>
      simp only [Traced.seenBy_bind, Traced.log, Traced.seenBy_note, Traced.seenBy_pure]
      rfl
    | error failure =>
      simp only [Traced.seenBy_bind, Traced.log, Traced.seenBy_note, Traced.seenBy_pure]
      rfl
  · rw [if_neg hdue, NodeRegistry.refreshIfDue, if_neg hdue]
    rfl

/-- The calls of collecting from some targets. -/
theorem calls_collectAll (collector : Collector σ μ) (utc : Nat)
    (targets : List (Option String)) :
    (collectAll utc targets collector).seenBy Event.call? = askingCalls targets := by
  have hqueries := (collectAll_output collector utc targets).2.2
  have hasked : (collectAll utc targets collector).seenBy Event.asked? =
      ((collectAll utc targets collector).seenBy Event.query?).map
        fun query => .ask query.1 query.2.node :=
    (List.map_filterMap ..).symm
  rw [(minds_collectAll utc targets collector).calls_targets, hasked, hqueries, askingCalls,
    List.map_flatMap]
  rfl

/-- The call of a clean-up. -/
theorem calls_cleanUp {collector : Collector σ μ} {registry : NodeRegistry μ}
    (h : collector.registry = some registry) (now : Nat) :
    (collector.cleanUp now).seenBy Event.call? =
      if now - collector.cleanedUpAt < cleanupInterval then [] else [.prune registry.nodes] := by
  rw [(minds_cleanUp collector now).calls_nodes]
  by_cases htime : now - collector.cleanedUpAt < cleanupInterval
  · rw [if_pos htime]
    simp only [cleanUp, h, if_pos htime, Traced.seenBy_pure]
  · rw [if_neg htime]
    simp only [cleanUp, h, if_neg htime]
    rfl

end Parts

/-! ## What the parts of a tick let be received -/

section Received

variable [MetricSource σ]

/-- What is noted while the list of nodes is brought up to date is received. -/
theorem receives_refreshNodes [NodeLister μ] (collector : Collector (Recording σ) (Recording μ))
    (now : Nat) :
    Receives collector ((collector.refreshNodes now).seenBy Event.call?)
      (collector.refreshNodes now).value := by
  rw [(minds_refreshNodes collector now).calls_nodes, refreshNodes]
  cases hregistry : collector.registry with
  | none => exact .none rfl rfl
  | some registry =>
    have hbefore : collector.listings = registry.lister.calls := by rw [listings, hregistry]
    have hseen := seenBy_refreshIfDue registry now collector.source
    have hrefreshed := registry.refreshed now collector.source
    simp only [Traced.seenBy_map, Noted.value_map, hseen]
    generalize (registry.refreshIfDue now collector.source).value = result at hrefreshed
    cases hrefreshed with
    | waits hwaits =>
      rw [hwaits]
      exact .none rfl hregistry.symm
    | succeeds hdue hok =>
      rw [hdue, hok]
      exact ⟨rfl, congrArg (· ++ [Call.list]) hbefore.symm⟩
    | fails hdue herror =>
      rw [hdue, herror]
      exact ⟨(List.append_nil _).symm, congrArg (· ++ [Call.list]) hbefore.symm⟩

/-- Collecting from some targets lets the source receive both queries for each of them. -/
theorem receives_collectAll (utc : Nat) (targets : List (Option String))
    (collector : Collector (Recording σ) (Recording μ)) :
    Receives collector (askingCalls targets) (collectAll utc targets collector).value := by
  induction targets generalizing collector with
  | nil => exact .none rfl rfl
  | cons node targets ih =>
    have hfirst : Receives collector [.ask .perf node, .ask .insights node]
        (collector.collectTarget utc node).value :=
      ⟨List.append_assoc _ _ _, (List.append_nil _).symm⟩
    exact hfirst.trans (ih _)

/-- A clean-up that is noted is received. -/
theorem receives_cleanUp (collector : Collector (Recording σ) (Recording μ)) (now : Nat) :
    Receives collector ((collector.cleanUp now).seenBy Event.call?)
      (collector.cleanUp now).value := by
  cases hregistry : collector.registry with
  | none =>
    rw [cleanUp, hregistry]
    exact .none rfl rfl
  | some registry =>
    rw [calls_cleanUp hregistry]
    by_cases htime : now - collector.cleanedUpAt < cleanupInterval
    · rw [if_pos htime, cleanUp, hregistry]
      simp only [if_pos htime]
      exact .none rfl rfl
    · rw [if_neg htime, cleanUp, hregistry]
      simp only [if_neg htime]
      refine ⟨rfl, ?_⟩
      rw [listings, listings, hregistry]
      exact (List.append_nil _).symm

end Received

/-! ## One tick -/

section Ticks

variable [NodeLister μ] {lister : μ} {startedAt : Nat} {attempts cleanups : List Nat}
  {collector : Collector σ μ}

/-- The nodes that are known after some attempts to list them, and when the last one was. -/
def registryAfter (lister : μ) (attempts : List Nat) : NodeRegistry μ where
  lister := NodeLister.after lister attempts.length
  nodes := NodeLister.known lister attempts.length
  refreshedAt := attempts.getLast?

theorem isDue_registryAfter (lister : μ) (attempts : List Nat) (now : Nat) :
    (registryAfter lister attempts).isDue now = listingIsDue attempts now := by
  rw [NodeRegistry.isDue, listingIsDue, registryAfter]
  congr 1
  funext earlier
  rw [decide_eq_decide, nodeLifetime]
  omega

theorem nextAnswer_registryAfter (lister : μ) (attempts : List Nat) :
    (registryAfter lister attempts).nextAnswer = NodeLister.answer lister attempts.length :=
  rfl

theorem registryAfter_of_due {attempts : List Nat} {now : Nat} {nodes : List String} (lister : μ)
    (hdue : listingIsDue attempts now = true)
    (hknown : NodeLister.known lister (attempts.length + 1) = nodes) :
    registryAfter lister (attemptsAfter attempts now) =
      ⟨(registryAfter lister attempts).nextLister, nodes, some now⟩ := by
  have hone : attemptsAfter attempts now = attempts ++ [now] := by
    rw [attemptsAfter, hdue]
    rfl
  rw [registryAfter, hone, List.length_append, List.length_singleton, hknown, List.getLast?_concat]
  rfl

/-- Bringing the list of nodes up to date is one more attempt, if it is time. -/
theorem refreshIfDue_registryAfter {σ : Type} [MetricSource σ] (lister : μ) (attempts : List Nat)
    (now : Nat) (source : σ) :
    ((registryAfter lister attempts).refreshIfDue now source).value.1 =
      registryAfter lister (attemptsAfter attempts now) := by
  have hrefreshed := (registryAfter lister attempts).refreshed now source
  generalize ((registryAfter lister attempts).refreshIfDue now source).value = result
    at hrefreshed
  cases hrefreshed with
  | waits hwaits =>
    rw [isDue_registryAfter] at hwaits
    have hsame : attemptsAfter attempts now = attempts := by
      rw [attemptsAfter, hwaits]
      exact List.append_nil _
    rw [hsame]
  | succeeds hdue hok =>
    rw [isDue_registryAfter] at hdue
    exact (registryAfter_of_due lister hdue (NodeLister.known_of_ok hok)).symm
  | fails hdue herror =>
    rw [isDue_registryAfter] at hdue
    exact (registryAfter_of_due lister hdue (NodeLister.known_of_error herror)).symm

/-- The attempts and clean-ups so far, and the answers of the lister, tell which nodes a collector
knows and when it looks after them. -/
structure Follows (collector : Collector σ μ) (lister : μ) (startedAt : Nat)
    (attempts cleanups : List Nat) : Prop where
  registry_eq : collector.registry = some (registryAfter lister attempts)
  cleanedUpAt_eq : collector.cleanedUpAt = cleanups.getLast?.getD startedAt

theorem follows_start (options : CollectorOptions) (source : σ) (lister : μ) (startedAt : Nat) :
    (start options source (some lister) startedAt).Follows lister startedAt [] [] :=
  ⟨rfl, rfl⟩

theorem Follows.of_upkeep {other : Collector σ μ}
    (h : collector.Follows lister startedAt attempts cleanups)
    (hupkeep : other.upkeep = collector.upkeep) :
    other.Follows lister startedAt attempts cleanups := by
  rw [upkeep, upkeep, Prod.mk.injEq] at hupkeep
  exact ⟨hupkeep.1.trans h.registry_eq, hupkeep.2.trans h.cleanedUpAt_eq⟩

theorem Follows.targets_eq (h : collector.Follows lister startedAt attempts cleanups) :
    collector.targets = (NodeLister.known lister attempts.length).map some := by
  rw [targets, h.registry_eq]
  rfl

variable [MetricSource σ]

/-- Bringing the list of nodes up to date: it is listed anew if the last attempt is long enough
ago. -/
theorem Follows.refreshNodes (h : collector.Follows lister startedAt attempts cleanups)
    (now : Nat) :
    (collector.refreshNodes now).value.Follows lister startedAt (attemptsAfter attempts now)
        cleanups ∧
      (collector.refreshNodes now).seenBy Event.call? = listingCalls lister attempts now := by
  have hregistry := h.registry_eq
  constructor
  · constructor
    · have hvalue : (collector.refreshNodes now).value.registry =
          some ((registryAfter lister attempts).refreshIfDue now collector.source).value.1 := by
        rw [Collector.refreshNodes, hregistry]
        rfl
      rw [hvalue, refreshIfDue_registryAfter]
    · have hkept : (collector.refreshNodes now).value.cleanedUpAt = collector.cleanedUpAt := by
        rw [Collector.refreshNodes, hregistry]
        rfl
      exact hkept.trans h.cleanedUpAt_eq
  · have hseen : (collector.refreshNodes now).seenBy Event.upkeep? =
        ((registryAfter lister attempts).refreshIfDue now collector.source).seenBy
          Event.upkeep? := by
      rw [Collector.refreshNodes, hregistry]
      exact Traced.seenBy_map ..
    rw [(minds_refreshNodes collector now).calls_nodes, hseen, seenBy_refreshIfDue,
      isDue_registryAfter, nextAnswer_registryAfter, listingCalls]

/-- Cleaning up: the source is told which nodes are live if the last clean-up is long enough ago. -/
theorem Follows.cleanUp (h : collector.Follows lister startedAt attempts cleanups) (now : Nat) :
    (collector.cleanUp now).value.Follows lister startedAt attempts
        (cleanupsAfter startedAt cleanups now) ∧
      (collector.cleanUp now).seenBy Event.call? =
        cleanupCalls startedAt cleanups now (NodeLister.known lister attempts.length) := by
  have hregistry := h.registry_eq
  have hdue : (now - collector.cleanedUpAt < cleanupInterval) ↔
      ¬ cleanupIsDue startedAt cleanups now = true := by
    rw [h.cleanedUpAt_eq, cleanupIsDue, decide_eq_true_eq, cleanupInterval]
    omega
  rw [calls_cleanUp hregistry]
  by_cases htime : now - collector.cleanedUpAt < cleanupInterval
  · have hwaits : ¬ cleanupIsDue startedAt cleanups now = true := hdue.1 htime
    have hvalue : collector.cleanUp now = pure collector := by
      rw [Collector.cleanUp, hregistry]
      exact if_pos htime
    rw [if_pos htime, hvalue, cleanupsAfter, cleanupCalls, if_neg hwaits, if_neg hwaits,
      List.append_nil]
    exact ⟨h, rfl⟩
  · have hcleans : cleanupIsDue startedAt cleanups now = true := by
      by_contra hwaits
      exact htime (hdue.2 hwaits)
    have hvalue : (collector.cleanUp now).value = { collector with
        source := MetricSource.pruneNodeCache (NodeLister.known lister attempts.length)
          collector.source
        cleanedUpAt := now } := by
      rw [Collector.cleanUp, hregistry]
      exact congrArg Noted.value (if_neg htime)
    rw [if_neg htime, hvalue, cleanupsAfter, cleanupCalls, if_pos hcleans, if_pos hcleans]
    refine ⟨⟨hregistry, ?_⟩, rfl⟩
    rw [List.getLast?_concat]
    rfl

variable [ConfigurationFetcher φ]

/-- The calls of a tick are those of the parts that look after nodes or collect from them. -/
theorem calls_tick (moment : Moment) (collector : Collector σ μ) (cache : RoutingCache φ) :
    (collector.tick moment cache).seenBy Event.call? =
      (collector.readied moment cache).seenBy Event.call? ++
        askingCalls (collector.collecting moment cache).targets ++
          (collector.cleaned moment cache).seenBy Event.call? := by
  have hlookUp : (collector.lookUpStreams moment cache).seenBy Event.call? = [] :=
    (minds_lookUpStreams _ _ _).calls_eq_nil (by decide) (by decide)
  have hflushed : (collector.flushed moment cache).seenBy Event.call? = [] :=
    (minds_flushTelemetry _ _).calls_eq_nil (by decide) (by decide)
  have hcollected : (collector.collected moment cache).seenBy Event.call? =
      askingCalls (collector.collecting moment cache).targets :=
    calls_collectAll _ _ _
  rw [tick_seenBy, hlookUp, hcollected, hflushed, List.nil_append, List.append_nil]

/-- The calls of a tick, in view of the attempts and clean-ups before it. -/
def tickCalls (lister : μ) (startedAt : Nat) (attempts cleanups : List Nat) (now : Nat) :
    List Call :=
  listingCalls lister attempts now ++
    askingCalls ((NodeLister.known lister (attemptsAfter attempts now).length).map some) ++
      cleanupCalls startedAt cleanups now
        (NodeLister.known lister (attemptsAfter attempts now).length)

theorem any_askingCalls {wanted : Call → Bool}
    (h : ∀ stream node, wanted (.ask stream node) = false) (targets : List (Option String)) :
    (askingCalls targets).any wanted = false := by
  rw [askingCalls, List.any_flatMap, List.any_eq_false]
  intro node _
  simp only [List.any_cons, List.any_nil, h, Bool.or_false, Bool.false_eq_true, not_false_iff]

theorem any_lists_tickCalls (lister : μ) (startedAt : Nat) (attempts cleanups : List Nat)
    (now : Nat) :
    (tickCalls lister startedAt attempts cleanups now).any Call.lists =
      listingIsDue attempts now := by
  have hcleanup : ∀ nodes, (cleanupCalls startedAt cleanups now nodes).any Call.lists = false := by
    intro nodes
    unfold cleanupCalls
    split <;> rfl
  rw [tickCalls, List.any_append, List.any_append, any_askingCalls fun _ _ => rfl, hcleanup,
    Bool.or_false, Bool.or_false, listingCalls]
  cases listingIsDue attempts now with
  | false => rfl
  | true => cases (NodeLister.answer lister attempts.length).isOk <;> rfl

theorem any_prunes_tickCalls (lister : μ) (startedAt : Nat) (attempts cleanups : List Nat)
    (now : Nat) :
    (tickCalls lister startedAt attempts cleanups now).any Call.prunes =
      cleanupIsDue startedAt cleanups now := by
  have hlisting : (listingCalls lister attempts now).any Call.prunes = false := by
    unfold listingCalls
    split
    · split <;> rfl
    · rfl
  rw [tickCalls, List.any_append, List.any_append, any_askingCalls fun _ _ => rfl, hlisting,
    Bool.false_or, Bool.false_or, cleanupCalls]
  cases cleanupIsDue startedAt cleanups now <;> rfl

/-- A tick makes the calls that it is time for, and with them the attempts and clean-ups go on. -/
theorem Follows.tickOn (h : collector.Follows lister startedAt attempts cleanups)
    (occasion : Occasion σ φ) :
    (collector.tickOn occasion).value.Follows lister startedAt
        (attemptsAfter attempts occasion.moment.now)
        (cleanupsAfter startedAt cleanups occasion.moment.now) ∧
      (collector.tickOn occasion).seenBy Event.call? =
        tickCalls lister startedAt attempts cleanups occasion.moment.now := by
  have hmeeting : (collector.meeting occasion).Follows lister startedAt attempts cleanups :=
    h.of_upkeep rfl
  have hlookUp := hmeeting.of_upkeep
    (lookUpStreams_upkeep occasion.moment (collector.meeting occasion) occasion.cache).1
  obtain ⟨hcollecting, hlisting⟩ := hlookUp.refreshNodes occasion.moment.now
  have hcollected := hcollecting.of_upkeep (collectAll_upkeep occasion.moment.utc
    ((collector.meeting occasion).collecting occasion.moment occasion.cache).targets
    ((collector.meeting occasion).collecting occasion.moment occasion.cache))
  have hflushed : ((collector.meeting occasion).flushed occasion.moment
      occasion.cache).value.Follows lister startedAt (attemptsAfter attempts occasion.moment.now)
      cleanups := hcollected.of_upkeep rfl
  obtain ⟨hcleaned, hcleanup⟩ := hflushed.cleanUp occasion.moment.now
  constructor
  · rw [Collector.tickOn, Noted.value_map, tick_value]
    exact hcleaned
  · rw [Collector.tickOn, Traced.seenBy_map, calls_tick]
    have htargets := hcollecting.targets_eq
    exact congrArg₂ _ (congrArg₂ _ hlisting (congrArg askingCalls htargets)) hcleanup

end Ticks

/-! ## Runs -/

section Runs

variable [ConfigurationFetcher φ] [MetricSource σ] [NodeLister μ]

/-- The instants of the ticks with a wanted call, the first one first. -/
def instantsOf (wanted : Call → Bool) : Collector σ μ → List (Occasion σ φ) → List Nat
  | _, [] => []
  | collector, occasion :: occasions =>
    (if ((collector.tickOn occasion).seenBy Event.call?).any wanted then [occasion.moment.now]
      else []) ++ instantsOf wanted (collector.tickOn occasion).value occasions

theorem instantsOf_append (wanted : Call → Bool) (collector : Collector σ μ)
    (occasions : List (Occasion σ φ)) (occasion : Occasion σ φ) :
    instantsOf wanted collector (occasions ++ [occasion]) =
      instantsOf wanted collector occasions ++
        if (((collector.runOn occasions).tickOn occasion).seenBy Event.call?).any wanted then
          [occasion.moment.now]
        else [] := by
  induction occasions generalizing collector with
  | nil =>
    rw [List.nil_append, instantsOf]
    exact List.append_nil _
  | cons first occasions ih =>
    rw [List.cons_append, instantsOf, instantsOf, ih, List.append_assoc]
    rfl

/-- Along a run the trace tells which nodes a collector knows. -/
theorem follows_runOn (options : CollectorOptions) (source : σ) (lister : μ) (startedAt : Nat)
    (occasions : List (Occasion σ φ)) :
    ((start options source (some lister) startedAt).runOn occasions).Follows lister startedAt
      (instantsOf Call.lists (start options source (some lister) startedAt) occasions)
      (instantsOf Call.prunes (start options source (some lister) startedAt) occasions) := by
  induction occasions using List.reverseRecOn with
  | nil => exact follows_start options source lister startedAt
  | append_singleton occasions occasion ih =>
    obtain ⟨hnext, hcalls⟩ := ih.tickOn occasion
    rw [runOn_append, instantsOf_append, instantsOf_append, hcalls, any_lists_tickCalls,
      any_prunes_tickCalls]
    exact hnext

/-- A collector of the local node asks for it and makes no other calls. -/
theorem tickOn_single {collector : Collector σ μ} (h : collector.registry = none)
    (occasion : Occasion σ φ) :
    (collector.tickOn occasion).value.registry = none ∧
      (collector.tickOn occasion).seenBy Event.call? = askingCalls [none] := by
  have hlookUp : ((collector.meeting occasion).lookUpStreams occasion.moment
      occasion.cache).value.1.registry = none :=
    (congrArg Prod.fst (lookUpStreams_upkeep occasion.moment (collector.meeting occasion)
      occasion.cache).1).trans h
  have hreadied : (collector.meeting occasion).readied occasion.moment occasion.cache =
      pure ((collector.meeting occasion).lookUpStreams occasion.moment
        occasion.cache).value.1 := by
    rw [readied, refreshNodes, hlookUp]
  have hcollecting : ((collector.meeting occasion).collecting occasion.moment
      occasion.cache).registry = none := by
    rw [collecting, hreadied]
    exact hlookUp
  have hflushed : ((collector.meeting occasion).flushed occasion.moment
      occasion.cache).value.registry = none :=
    (congrArg Prod.fst (collectAll_upkeep occasion.moment.utc _ _)).trans hcollecting
  have hcleaned : (collector.meeting occasion).cleaned occasion.moment occasion.cache =
      pure ((collector.meeting occasion).flushed occasion.moment occasion.cache).value := by
    rw [cleaned, cleanUp, hflushed]
  constructor
  · rw [tickOn, Noted.value_map, tick_value, hcleaned]
    exact hflushed
  · rw [tickOn, Traced.seenBy_map, calls_tick, hreadied, hcleaned, targets_single hcollecting]
    rfl

theorem runOn_single {collector : Collector σ μ} (h : collector.registry = none)
    (occasions : List (Occasion σ φ)) : (collector.runOn occasions).registry = none := by
  induction occasions using List.reverseRecOn with
  | nil => exact h
  | append_singleton occasions occasion ih =>
    rw [runOn_append]
    exact (tickOn_single ih occasion).1

theorem receives_tick (moment : Moment) (collector : Collector (Recording σ) (Recording μ))
    (cache : RoutingCache φ) :
    Receives collector ((collector.tick moment cache).seenBy Event.call?)
      (collector.tick moment cache).value.1 := by
  obtain ⟨hregistry, hsource⟩ := lookUpStreams_upkeep moment collector cache
  have hlookUp : Receives collector [] (collector.lookUpStreams moment cache).value.1 :=
    .none (congrArg Recording.calls hsource) (congrArg Prod.fst hregistry)
  have hreadied : Receives (collector.lookUpStreams moment cache).value.1
      ((collector.readied moment cache).seenBy Event.call?) (collector.collecting moment cache) :=
    receives_refreshNodes _ _
  have hcollected : Receives (collector.collecting moment cache)
      (askingCalls (collector.collecting moment cache).targets)
      (collector.collected moment cache).value := receives_collectAll _ _ _
  have hflushed : Receives (collector.collected moment cache).value []
      (collector.flushed moment cache).value := .none rfl rfl
  have hcleaned : Receives (collector.flushed moment cache).value
      ((collector.cleaned moment cache).seenBy Event.call?)
      (collector.cleaned moment cache).value := receives_cleanUp _ _
  have hall := (((hlookUp.trans hreadied).trans hcollected).trans hflushed).trans hcleaned
  rw [List.nil_append, List.append_nil] at hall
  rw [calls_tick, tick_value]
  exact hall

/-- A tick lets the source and the lister receive the calls in its trace. -/
theorem receives_tickOn (collector : Collector (Recording σ) (Recording μ))
    (occasion : Occasion σ φ) :
    Receives collector ((collector.tickOn occasion.recorded).seenBy Event.call?)
      (collector.tickOn occasion.recorded).value := by
  have hmeeting : Receives collector [] (collector.meeting occasion.recorded) := .none rfl rfl
  rw [tickOn, Traced.seenBy_map, Noted.value_map]
  exact hmeeting.trans (receives_tick _ _ _)

/-- The tick on an occasion, after a run on earlier ones, makes these calls: they are in its trace,
and a source and a lister that keep a record receive them. -/
structure MakesCalls (options : CollectorOptions) (source : σ) (lister : Option μ) (startedAt : Nat)
    (earlier : List (Occasion σ φ)) (occasion : Occasion σ φ) (calls : List Call) : Prop where
  traced : (((start options source lister startedAt).runOn earlier).tickOn occasion).seenBy
    Event.call? = calls
  received : Receives (runRecorded options source lister startedAt earlier) calls
    (runRecorded options source lister startedAt (earlier ++ [occasion]))

/-- What is in the trace of a tick is received. -/
theorem MakesCalls.of_traced {options : CollectorOptions} {source : σ} {lister : Option μ}
    {startedAt : Nat} {earlier : List (Occasion σ φ)} {occasion : Occasion σ φ}
    {calls : List Call}
    (h : (((start options source lister startedAt).runOn earlier).tickOn occasion).seenBy
      Event.call? = calls) :
    MakesCalls options source lister startedAt earlier occasion calls := by
  refine ⟨h, ?_⟩
  have hreceived := receives_tickOn (runRecorded options source lister startedAt earlier) occasion
  have hsame := (tickOn_forget (runRecorded options source lister startedAt earlier)
    occasion).notes_eq
  rw [runRecorded_forget] at hsame
  rw [Traced.seenBy, ← hsame] at hreceived
  rw [runRecorded_append, ← h]
  exact hreceived

/-- The calls of every tick of a run, which the source and the lister receive.  With a lister they
are those that it is time for, in view of the attempts and clean-ups in the trace so far; without
one they are the queries for the local node. -/
theorem nodeCalls_runOn (options : CollectorOptions) (source : σ) (startedAt : Nat)
    (earlier : List (Occasion σ φ)) (occasion : Occasion σ φ) :
    (∀ lister : μ, MakesCalls options source (some lister) startedAt earlier occasion
      (tickCalls lister startedAt
        (instantsOf Call.lists (start options source (some lister) startedAt) earlier)
        (instantsOf Call.prunes (start options source (some lister) startedAt) earlier)
        occasion.moment.now)) ∧
      MakesCalls options source (none : Option μ) startedAt earlier occasion
        (askingCalls [none]) := by
  constructor
  · intro lister
    exact .of_traced ((follows_runOn options source lister startedAt earlier).tickOn occasion).2
  · exact .of_traced (tickOn_single (runOn_single rfl earlier) occasion).2

end Runs

/-- A lister that lists one node, fails once, and lists another node from then on. -/
def falteringLister : FixedListings :=
  ⟨[.ok ["a"], .error ⟨[], .text "down"⟩, .ok ["b"]]⟩

/-- An occasion on which the fetcher has no configurations. -/
def quietAt (now : Nat) : Occasion Silence FixedAnswers := ⟨⟨now, 0⟩, .start (.always []), id⟩

/-- The choices for a collector that does not look up its streams. -/
def plainOptions : CollectorOptions := ⟨"c", false, false, 60000000, none⟩

/-- A listing that fails resets nothing and keeps the node that is known; the next one is made 300
seconds later and brings another node. -/
theorem nodeCalls_runOn_failedListing :
    MakesCalls plainOptions Silence.silence (some falteringLister) 0 [quietAt 0]
        (quietAt 300000000)
        [.list, .ask .perf (some "a"), .ask .insights (some "a"), .prune ["a"]] ∧
      MakesCalls plainOptions Silence.silence (some falteringLister) 0
        [quietAt 0, quietAt 300000000] (quietAt 600000000)
        [.list, .reset, .ask .perf (some "b"), .ask .insights (some "b"), .prune ["b"]] := by
  have hfailed := (nodeCalls_runOn plainOptions Silence.silence 0 [quietAt 0]
    (quietAt 300000000)).1 falteringLister
  have hlisted := (nodeCalls_runOn plainOptions Silence.silence 0 [quietAt 0, quietAt 300000000]
    (quietAt 600000000)).1 falteringLister
  constructor
  · convert hfailed using 1
    decide
  · convert hlisted using 1
    decide

/-- What the lister and the source have received after a listing that failed. -/
example :
    let collector := runRecorded plainOptions Silence.silence (some falteringLister) 0
      [quietAt 0, quietAt 300000000]
    collector.listings = [.list, .list] ∧
      collector.source.calls = [.reset, .ask .perf (some "a"), .ask .insights (some "a"),
        .ask .perf (some "a"), .ask .insights (some "a"), .prune ["a"]] := by
  decide

/-- Attempts and clean-ups, each at least 300 seconds after the last one. -/
example :
    let collector : Collector Silence FixedListings :=
      start plainOptions .silence (some falteringLister) 0
    let occasions := [0, 299999999, 300000000, 600000000].map quietAt
    instantsOf Call.lists collector occasions = [0, 300000000, 600000000] ∧
      instantsOf Call.prunes collector occasions = [300000000, 600000000] := by
  decide

end Collector

end PerfRelay
