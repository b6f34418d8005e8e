import Mathlib.Algebra.BigOperators.Group.List.Basic
import Mathlib.Data.List.Induction
import PerfRelay.Proofs.Collection.Occasions
import PerfRelay.Proofs.Collection.Output
import PerfRelay.Proofs.Decimal.Whole

/-!
# The number of perf records

A tick counts the perf records of the answers that it gets, target by target, and reports the count
if the window is over.  Every perf record is counted once: what was reported in a run and what is
counted since the last report make up all perf records of the run.

Main results:

- Theorem `collectAll_counters`: what collecting from some targets counts.
- Theorem `tickOn_tallies`: what one tick counts and reports.
- Theorem `recordCounts_runOn`: the reports of a run, and when there are any.
-/

namespace PerfRelay

/-- The number of perf records in an answer; a failure has none, and insights are not counted. -/
def Answered.perfCount : Answered → Nat
  | ⟨_, .perf, .ok records⟩ => records.length
  | _ => 0

theorem Answered.perfCount_perf (node : Option String) (answer : Except Failure (List Record)) :
    perfCount ⟨node, .perf, answer⟩ = Collector.answerCount answer := by
  cases answer <;> rfl

theorem Answered.perfCount_insights (node : Option String)
    (answer : Except Failure (List Record)) : perfCount ⟨node, .insights, answer⟩ = 0 :=
  rfl

/-- The number of perf records in some answers. -/
def perfTotal (answered : List Answered) : Nat := (answered.map Answered.perfCount).sum

theorem perfTotal_append (answered more : List Answered) :
    perfTotal (answered ++ more) = perfTotal answered + perfTotal more := by
  rw [perfTotal, List.map_append, List.sum_append]
  rfl

/-- A report of the number of perf records. -/
structure CountReport where
  instant : Nat
  value : Binary64
deriving DecidableEq

namespace CountReport

/-- What some reports add up to. -/
def total (reports : List CountReport) : ℚ := (reports.map fun report => report.value.toRat).sum

/-- When the last report was made, or else when there was no record yet. -/
def lastInstant (startedAt : Nat) (reports : List CountReport) : Nat :=
  (reports.getLast?.map instant).getD startedAt

theorem total_concat (reports : List CountReport) (report : CountReport) :
    total (reports ++ [report]) = total reports + report.value.toRat := by
  simp [total]

theorem lastInstant_concat (startedAt : Nat) (reports : List CountReport)
    (report : CountReport) : lastInstant startedAt (reports ++ [report]) = report.instant := by
  rw [lastInstant, List.getLast?_concat]
  rfl

end CountReport

namespace Event

/-- The number of perf records that is reported. -/
def recordCount? : Event → Option Binary64
  | .reported (.metric name value _) => if name = recordCountMetric then some value else none
  | _ => none

theorem shows_recordCount? : Shows recordCount? .telemetry := by
  intro event hconcern
  cases event with
  | reported report =>
    cases report with
    | metric name value tags => exact absurd rfl hconcern
    | exception failure => rfl
  | _ => rfl

end Event

/-! ## Counting -/

namespace Counters

variable {counters : Counters}

theorem add_zero (h : counters.recordCount ≤ greatestCount) : counters.add 0 = counters := by
  rw [add, Nat.add_zero, Nat.min_eq_right h]

theorem add_add (counters : Counters) (records more : Nat) :
    (counters.add records).add more = counters.add (records + more) := by
  simp only [add, mk.injEq, and_true]
  omega

theorem recordCount_add_le (counters : Counters) (records : Nat) :
    (counters.add records).recordCount ≤ greatestCount :=
  Nat.min_le_left _ _

theorem recordCount_add {records : Nat} (h : counters.recordCount + records ≤ greatestCount) :
    (counters.add records).recordCount = counters.recordCount + records :=
  Nat.min_eq_right h

variable {now window : Nat}

theorem takeIfDue_of_lt (h : now - counters.windowStartedAt < window) :
    counters.takeIfDue now window = (none, counters) :=
  if_pos h

theorem takeIfDue_of_le (h : window ≤ now - counters.windowStartedAt) :
    counters.takeIfDue now window = (some counters.recordCount, start now) :=
  if_neg (Nat.not_lt.2 h)

/-- The report of a count, if the window is over. -/
def reports (counters : Counters) (now : Nat) : List CountReport :=
  (counters.takeIfDue now telemetryWindow).1.toList.map fun count => ⟨now, .ofNat count⟩

/-- The reports so far tell when the window began.  As long as a significand can hold the number of
perf records so far, those that were not reported yet are the ones that are counted. -/
structure Tallies (counters : Counters) (startedAt total : Nat) (reports : List CountReport) :
    Prop where
  recordCount_le : counters.recordCount ≤ greatestCount
  windowStartedAt_eq : counters.windowStartedAt = CountReport.lastInstant startedAt reports
  conserves : total < 2 ^ 53 → ∃ reported : Nat, CountReport.total reports = reported ∧
    reported + counters.recordCount = total

theorem tallies_start (now : Nat) : (start now).Tallies now 0 [] :=
  ⟨Nat.zero_le _, rfl, fun _ => ⟨0, rfl, rfl⟩⟩

variable {startedAt total : Nat} {earlier : List CountReport}

theorem Tallies.add (h : counters.Tallies startedAt total earlier) (records : Nat) :
    (counters.add records).Tallies startedAt (total + records) earlier := by
  constructor
  · exact recordCount_add_le counters records
  · exact h.windowStartedAt_eq
  · intro hsmall
    obtain ⟨reported, hreported, hrest⟩ := h.conserves (by omega)
    have hgreatest : 2 ^ 53 ≤ greatestCount := by decide
    refine ⟨reported, hreported, ?_⟩
    rw [recordCount_add (by omega)]
    omega

/-- A report of the count takes the place of the count. -/
theorem Tallies.take (h : counters.Tallies startedAt total earlier) (now : Nat) :
    (start now).Tallies startedAt total (earlier ++ [⟨now, .ofNat counters.recordCount⟩]) := by
  constructor
  · exact Nat.zero_le _
  · rw [CountReport.lastInstant_concat]
    rfl
  · intro hsmall
    obtain ⟨reported, hreported, hrest⟩ := h.conserves hsmall
    have hvalue : (Binary64.ofNat counters.recordCount).toRat = counters.recordCount :=
      Binary64.toRat_ofNat (by omega)
    refine ⟨reported + counters.recordCount, ?_, hrest⟩
    rw [CountReport.total_concat, hreported, hvalue, Nat.cast_add]

/-- A count is reported exactly when the window is over, and then nothing is left of it. -/
theorem Tallies.takeIfDue (h : counters.Tallies startedAt total earlier) (now : Nat) :
    (counters.takeIfDue now telemetryWindow).2.Tallies startedAt total
        (earlier ++ counters.reports now) ∧
      (counters.reports now).map CountReport.instant =
        (if telemetryWindow ≤ now - CountReport.lastInstant startedAt earlier then [now] else []) ∧
      (counters.reports now ≠ [] →
        (counters.takeIfDue now telemetryWindow).2.recordCount = 0) := by
  rw [← h.windowStartedAt_eq]
  by_cases hdue : telemetryWindow ≤ now - counters.windowStartedAt
  · have htaken := takeIfDue_of_le hdue
    have hreports : counters.reports now = [⟨now, .ofNat counters.recordCount⟩] := by
      rw [reports, htaken]
      rfl
    rw [hreports, htaken, if_pos hdue]
    exact ⟨h.take now, rfl, fun _ => rfl⟩
  · have hkept := takeIfDue_of_lt (Nat.not_le.1 hdue)
    have hnone : counters.reports now = [] := by
      rw [reports, hkept]
      rfl
    rw [hnone, hkept, if_neg hdue, List.append_nil]
    exact ⟨h, rfl, fun hsome => absurd rfl hsome⟩

end Counters

namespace Collector

variable {σ μ φ : Type}

/-! ## The parts of a tick -/

/-- A count is reported if the window is over. -/
theorem seenBy_flushTelemetry (collector : Collector σ μ) (now : Nat) :
    (collector.flushTelemetry now).seenBy Event.recordCount? =
      (collector.counters.takeIfDue now telemetryWindow).1.toList.map .ofNat := by
  rw [flushTelemetry]
  rcases collector.counters.takeIfDue now telemetryWindow with ⟨taken, counters⟩
  cases taken <;> rfl

theorem lookUpStreams_counters [ConfigurationFetcher φ] (moment : Moment)
    (collector : Collector σ μ) (cache : RoutingCache φ) :
    (collector.lookUpStreams moment cache).value.1.counters = collector.counters :=
  lookUpStreams_leaves counters (fun _ _ _ _ _ => rfl) moment collector cache

section Source

variable [MetricSource σ]

theorem refreshNodes_counters [NodeLister μ] (collector : Collector σ μ) (now : Nat) :
    (collector.refreshNodes now).value.counters = collector.counters := by
  unfold refreshNodes
  split <;> rfl

theorem cleanUp_counters (collector : Collector σ μ) (now : Nat) :
    (collector.cleanUp now).value.counters = collector.counters := by
  unfold cleanUp
  split
  · rfl
  · split <;> rfl

/-- Collecting from some targets counts the perf records of their answers.  The induction is on the
targets. -/
theorem collectAll_counters {collector : Collector σ μ}
    (h : collector.counters.recordCount ≤ greatestCount) (utc : Nat)
    (nodes : List (Option String)) :
    (collectAll utc nodes collector).value.counters =
      collector.counters.add
        (perfTotal (answers (collector.query utc) nodes collector.source)) := by
  induction nodes generalizing collector with
  | nil => exact (Counters.add_zero h).symm
  | cons node nodes ih =>
    let perf := (MetricSource.fetch .perf (collector.query utc node) collector.source).value
    have hcounters : (collector.collectTarget utc node).value.counters =
        collector.counters.add (answerCount perf.1) := rfl
    have htotal : perfTotal (answers (collector.query utc) (node :: nodes) collector.source) =
        answerCount perf.1 +
          perfTotal (answers ((collector.collectTarget utc node).value.query utc) nodes
            (collector.collectTarget utc node).value.source) := by
      rw [answers, perfTotal, List.map_cons, List.map_cons, List.sum_cons, List.sum_cons,
        Answered.perfCount_perf, Answered.perfCount_insights, Nat.zero_add]
      rfl
    have hfits : (collector.collectTarget utc node).value.counters.recordCount ≤ greatestCount := by
      rw [hcounters]
      exact Counters.recordCount_add_le _ _
    rw [collectAll, Noted.value_bind, ih hfits, hcounters, Counters.add_add, htotal]

end Source

/-! ## Ticks -/

section Ticks

variable [ConfigurationFetcher φ] [MetricSource σ] [NodeLister μ] {collector : Collector σ μ}

/-- The answers that the source gives in a tick on an occasion. -/
def answeredOn (collector : Collector σ μ) (occasion : Occasion σ φ) : List Answered :=
  (collector.meeting occasion).answered occasion.moment occasion.cache

/-- The reports of a tick. -/
def reportsOn (collector : Collector σ μ) (occasion : Occasion σ φ) : List CountReport :=
  ((collector.tickOn occasion).seenBy Event.recordCount?).map
    fun value => ⟨occasion.moment.now, value⟩

/-- What has been counted when a tick comes to its report. -/
def countedOn (collector : Collector σ μ) (occasion : Occasion σ φ) : Counters :=
  ((collector.meeting occasion).collected occasion.moment occasion.cache).value.counters

theorem countedOn_eq (h : collector.counters.recordCount ≤ greatestCount)
    (occasion : Occasion σ φ) :
    collector.countedOn occasion =
      collector.counters.add (perfTotal (collector.answeredOn occasion)) := by
  have hready : ((collector.meeting occasion).collecting occasion.moment
      occasion.cache).counters = collector.counters := by
    rw [collecting, readied, refreshNodes_counters, lookUpStreams_counters]
    rfl
  rw [countedOn, collected, collectAll_counters (by rwa [hready]), hready]
  rfl

theorem reportsOn_eq (collector : Collector σ μ) (occasion : Occasion σ φ) :
    collector.reportsOn occasion =
      (collector.countedOn occasion).reports occasion.moment.now := by
  rw [reportsOn, tickOn, Traced.seenBy_map, tick_telemetry Event.shows_recordCount?, flushed,
    seenBy_flushTelemetry, List.map_map]
  rfl

theorem tickOn_counters (collector : Collector σ μ) (occasion : Occasion σ φ) :
    (collector.tickOn occasion).value.counters =
      ((collector.countedOn occasion).takeIfDue occasion.moment.now telemetryWindow).2 := by
  rw [tickOn, Noted.value_map, tick_value, cleaned, cleanUp_counters]
  rfl

/-- A tick counts the perf records of its answers.  It reports what is counted exactly when the
window is over, and then nothing is left of it. -/
theorem tickOn_tallies {startedAt total : Nat} {reports : List CountReport}
    (h : collector.counters.Tallies startedAt total reports) (occasion : Occasion σ φ) :
    (collector.tickOn occasion).value.counters.Tallies startedAt
        (total + perfTotal (collector.answeredOn occasion))
        (reports ++ collector.reportsOn occasion) ∧
      (collector.reportsOn occasion).map CountReport.instant =
        (if telemetryWindow ≤ occasion.moment.now - CountReport.lastInstant startedAt reports then
          [occasion.moment.now] else []) ∧
      (collector.reportsOn occasion ≠ [] →
        (collector.tickOn occasion).value.counters.recordCount = 0) := by
  rw [reportsOn_eq, tickOn_counters, countedOn_eq h.recordCount_le]
  exact (h.add _).takeIfDue occasion.moment.now

end Ticks

/-! ## Runs -/

section Runs

variable [ConfigurationFetcher φ] [MetricSource σ] [NodeLister μ]

/-- The answers that the source gives in the ticks of a run. -/
def answeredAlong (collector : Collector σ μ) (occasions : List (Occasion σ φ)) : List Answered :=
  along answeredOn collector occasions

/-- The reports of a run, the first one first. -/
def reportsAlong (collector : Collector σ μ) (occasions : List (Occasion σ φ)) :
    List CountReport :=
  along reportsOn collector occasions

/-- Along a run nothing is lost.  The induction is on the ticks. -/
theorem tallies_runOn (options : CollectorOptions) (source : σ) (lister : Option μ)
    (startedAt : Nat) (occasions : List (Occasion σ φ)) :
    ((start options source lister startedAt).runOn occasions).counters.Tallies startedAt
      (perfTotal ((start options source lister startedAt).answeredAlong occasions))
      ((start options source lister startedAt).reportsAlong occasions) := by
  induction occasions using List.reverseRecOn with
  | nil => exact Counters.tallies_start startedAt
  | append_singleton occasions occasion ih =>
    rw [runOn_append, answeredAlong, reportsAlong, along_append, along_append, perfTotal_append]
    exact (tickOn_tallies ih occasion).1

/-- In every run of a new collector the reports so far and the count add up to the number of perf
records so far, as long as a significand can hold it.  A tick reports exactly when the window is
over, and then the reports alone add up to that number, the perf records of the tick with it. -/
theorem recordCounts_runOn {options : CollectorOptions} {source : σ} {lister : Option μ}
    {startedAt : Nat} {collector : Collector σ μ}
    (hnew : collector = start options source lister startedAt)
    (occasions : List (Occasion σ φ)) :
    (perfTotal (collector.answeredAlong occasions) < 2 ^ 53 →
      CountReport.total (collector.reportsAlong occasions) +
          (collector.runOn occasions).counters.recordCount =
        perfTotal (collector.answeredAlong occasions)) ∧
      ∀ occasion : Occasion σ φ,
        ((collector.runOn occasions).reportsOn occasion).map CountReport.instant =
            (if telemetryWindow ≤ occasion.moment.now -
                CountReport.lastInstant startedAt (collector.reportsAlong occasions) then
              [occasion.moment.now] else []) ∧
          ((collector.runOn occasions).reportsOn occasion ≠ [] →
            perfTotal (collector.answeredAlong (occasions ++ [occasion])) < 2 ^ 53 →
              CountReport.total (collector.reportsAlong (occasions ++ [occasion])) =
                perfTotal (collector.answeredAlong (occasions ++ [occasion]))) := by
  subst hnew
  have htallies := tallies_runOn options source lister startedAt (φ := φ)
  refine ⟨fun hsmall => ?_, fun occasion => ?_⟩
  · obtain ⟨reported, hreported, hrest⟩ := (htallies occasions).conserves hsmall
    rw [hreported, ← hrest, Nat.cast_add]
  · obtain ⟨-, hinstants, hnone⟩ := tickOn_tallies (htallies occasions) occasion
    refine ⟨hinstants, fun hreports hsmall => ?_⟩
    obtain ⟨reported, hreported, hrest⟩ := (htallies (occasions ++ [occasion])).conserves hsmall
    rw [runOn_append, hnone hreports, Nat.add_zero] at hrest
    rw [hreported, hrest]

end Runs

/-- An occasion on which nothing else has happened. -/
def quietly (now : Nat) : Occasion FixedRecords FixedAnswers where
  moment := ⟨now, 0⟩
  cache := .start (.always [])
  meanwhile := id

/-- The source fails once for each stream, and the other answers have perf records and insights. -/
def failingOnce : Collector FixedRecords FixedNodes :=
  ofTwoNodes [.ok [.null], .ok [.null], .error ⟨[], .text "x"⟩, .ok [.null],
    .ok [.null, .null], .error ⟨[], .text "x"⟩]

/-- The perf records of two ticks are reported in the second one. -/
theorem recordCounts_runOn_twoTicks :
    failingOnce = start ⟨"c", false, false, 60000000, some "m"⟩ failingOnce.source
        (some ⟨["a", "b"]⟩) 0 ∧
      CountReport.total (failingOnce.reportsAlong ([quietly 0] ++ [quietly telemetryWindow])) =
        3 := by
  have hnew : failingOnce = start ⟨"c", false, false, 60000000, some "m"⟩ failingOnce.source
    (some ⟨["a", "b"]⟩) 0 := rfl
  have hcounts : perfTotal (failingOnce.answeredAlong
      ([quietly 0] ++ [quietly telemetryWindow])) = 3 := by decide +kernel
  have hearlier : failingOnce.reportsAlong [quietly 0] = [] := by decide +kernel
  obtain ⟨hinstants, htotal⟩ :=
    (recordCounts_runOn hnew [quietly 0]).2 (quietly telemetryWindow)
  refine ⟨hnew, ?_⟩
  rw [hcounts] at htotal
  refine htotal ?_ (by decide)
  intro hnone
  rw [hnone, hearlier] at hinstants
  cases hinstants

end Collector

end PerfRelay
