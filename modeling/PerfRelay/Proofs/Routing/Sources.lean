import PerfRelay.Proofs.Collection.Scripts
import PerfRelay.Proofs.Collection.Staleness
import PerfRelay.Proofs.Routing.Sharing

/-!
# Where the stream of a look-up comes from

A look-up with a tag in use says whether its stream was taken from the table, and its caller takes
that as word that the fetcher was not asked.  A look-up that does not say so has asked.  One that
says so has not, with one exception: a recent look-up for the id of an output stream whose data type
is gone from the table asks, and still says that it took the stream from the table.

The other callers cannot change that.  They can come in between the two stages of a look-up for a
data type without a stream, but such a look-up asks in its second stage whatever it finds there.

Main results:

- Theorem `isTruthful_iff`: when a look-up at one go says where its stream comes from.
- Theorem `toldSource_iff`: the same, and for a look-up in the company of others as well.
-/

namespace PerfRelay

variable {φ : Type} [ConfigurationFetcher φ]

/-- A recent look-up has the id of an output stream in use, and its data type is gone from the
table. -/
structure RoutingTable.Lost (table : RoutingTable) (dataType tag : String) (age : Nat) : Prop where
  recent : age < routingLifetime
  isId : isStreamId tag = true
  gone : table.mapping.get? dataType = none

/-- A look-up for a stream that is lost is not answered from the table. -/
theorem RoutingTable.Lost.not_answers {table : RoutingTable} {dataType tag : String} {age : Nat}
    (h : table.Lost dataType tag age) : ¬ table.Answers dataType tag age := by
  intro hanswers
  have hknown := hanswers.knows h.isId
  rw [h.gone] at hknown
  exact Bool.false_ne_true hknown

namespace RoutingCache

variable {cache : RoutingCache φ} {dataType tag : String} {age : Nat}

/-! ## Look-ups at one go -/

/-- A look-up says that its stream was taken from the table, just if the fetcher was not asked. -/
def IsTruthful (cache : RoutingCache φ) (dataType tag : String) (age : Nat) : Prop :=
  (cache.outputStream dataType tag age).value.1.fromTable = true ↔
    (cache.outputStream dataType tag age).fetches = 0

/-- A look-up says where its stream comes from, unless the stream is lost. -/
theorem isTruthful_iff :
    cache.IsTruthful dataType tag age ↔ ¬ cache.table.Lost dataType tag age := by
  by_cases hanswers : cache.table.Answers dataType tag age
  · have hflag : (cache.outputStream dataType tag age).value.1.fromTable = true := by
      rw [outputStream_of_answers hanswers]
    refine iff_of_true (iff_of_true hflag (fetches_of_answers hanswers)) fun hlost => ?_
    exact hlost.not_answers hanswers
  · have hasks : ¬ (cache.outputStream dataType tag age).fetches = 0 := by
      rw [fetches_of_not_answers hanswers]
      exact Nat.one_ne_zero
    rw [IsTruthful, iff_false_right hasks, not_iff_not, outputStream_fromTable_iff]
    constructor
    · rintro ⟨hrecent, htrusts⟩
      -- The table is trusted for the tag and still does not answer.
      by_contra hlost
      refine hanswers ⟨hrecent, htrusts, fun hid => ?_⟩
      rw [Option.isSome_iff_ne_none]
      exact fun hgone => hlost ⟨hrecent, hid, hgone⟩
    · intro hlost
      exact ⟨hlost.recent, .inl hlost.isId⟩

/-- How often a look-up asks. -/
theorem fetches_resolve (cache : RoutingCache φ) (dataType : String) (useTable : Bool) :
    (cache.resolve dataType useTable).fetches =
      if useTable = true ∧ (cache.table.mapping.get? dataType).isSome then 0 else 1 := by
  cases useTable with
  | false => exact cache.fetches_resolveAnew dataType
  | true =>
    cases hget : cache.table.mapping.get? dataType with
    | none =>
      simp only [resolve, hget, if_true]
      exact cache.fetches_resolveAnew dataType
    | some stream =>
      rw [resolve_of_cached hget]
      rfl

end RoutingCache

/-! ## Look-ups in company -/

/-- How often a stage asks the fetcher. -/
def Stage.fetches (cache : RoutingCache φ) : Stage → Nat
  | .check _ _ => 0
  | .resolve dataType useTable => (cache.resolve dataType useTable).fetches

/-- What a call that finds the cache in a given state gives, and how often it asks.  If it takes the
lock a second time, others may have been there, and it finds the cache in any state. -/
inductive RoutingCall.Course (cache : RoutingCache φ) (call : RoutingCall) :
    RoutingCache.Resolution → Nat → Prop where
  | atOnce {found : RoutingCache.Resolution}
      (hfound : (call.first.perform cache).1 = .returns found) :
      Course cache call found (call.first.fetches cache)
  | inTwo {found : RoutingCache.Resolution} {next : Stage} (later : RoutingCache φ)
      (hnext : (call.first.perform cache).1 = .goesOn next)
      (hfound : (next.perform later).1 = .returns found) :
      Course cache call found (call.first.fetches cache + next.fetches later)

section Courses

variable {cache : RoutingCache φ} {dataType tag : String} {age : Nat}
  {found : RoutingCache.Resolution} {asked : Nat}

/-- A recent look-up without a tag: nothing is lost, and the second stage always asks. -/
theorem RoutingCall.Course.toldSource_of_isEmpty
    (h : Course cache (.outputStream dataType tag age) found asked)
    (hrecent : age < routingLifetime) (htag : tag.isEmpty = true) :
    found.fromTable = true ↔ asked = 0 := by
  have hfirst : (RoutingCall.outputStream dataType tag age).first = .check dataType false := by
    simp [first, hrecent, htag, isStreamId_of_isEmpty htag]
  cases h with
  | atOnce hfound =>
    rw [hfirst] at hfound ⊢
    simp only [Stage.perform] at hfound
    split at hfound
    · cases hfound
      exact iff_of_true rfl rfl
    · cases hfound
  | inTwo later hnext hfound =>
    rw [hfirst] at hnext ⊢
    simp only [Stage.perform] at hnext
    split at hnext
    · cases hnext
    · cases hnext
      cases hfound
      have hasks : (later.resolve dataType false).fetches = 1 := by
        rw [RoutingCache.fetches_resolve, if_neg (fun huse => Bool.false_ne_true huse.1)]
      simp only [Stage.fetches, hasks]
      exact iff_of_false Bool.false_ne_true (Nat.succ_ne_zero _)

/-- Any other look-up takes the lock once. -/
theorem RoutingCall.Course.toldSource_of_not_isEmpty
    (h : Course cache (.outputStream dataType tag age) found asked)
    (hother : ¬ (age < routingLifetime ∧ tag.isEmpty = true)) :
    (found.fromTable = true ↔ asked = 0) ↔ ¬ cache.table.Lost dataType tag age := by
  have hfirst : (RoutingCall.outputStream dataType tag age).first =
      .resolve dataType (decide (age < routingLifetime) && isStreamId tag) := by
    rw [first, if_neg (by simpa using hother)]
  have hlost : cache.table.Lost dataType tag age ↔
      (decide (age < routingLifetime) && isStreamId tag) = true ∧
        cache.table.mapping.get? dataType = none := by
    rw [Bool.and_eq_true, decide_eq_true_eq]
    constructor
    · rintro ⟨hrecent, hid, hgone⟩
      exact ⟨⟨hrecent, hid⟩, hgone⟩
    · rintro ⟨⟨hrecent, hid⟩, hgone⟩
      exact ⟨hrecent, hid, hgone⟩
  cases h with
  | atOnce hfound =>
    rw [hfirst] at hfound ⊢
    cases hfound
    rw [hlost, Stage.fetches, RoutingCache.fetches_resolve]
    cases (decide (age < routingLifetime) && isStreamId tag) with
    | false => simp
    | true => cases cache.table.mapping.get? dataType <;> simp
  | inTwo later hnext hfound =>
    rw [hfirst] at hnext
    cases hnext

end Courses

/-- A look-up with a tag in use says that its stream was taken from the table just if the fetcher
was not asked, unless the stream is lost.  So it is with a look-up at one go, whatever the callers
have done to the cache before it, and with one between whose stages others come in. -/
theorem toldSource_iff (cache : RoutingCache φ) (dataType tag : String) (age : Nat) :
    (cache.IsTruthful dataType tag age ↔ ¬ cache.table.Lost dataType tag age) ∧
      ∀ found asked, RoutingCall.Course cache (.outputStream dataType tag age) found asked →
        ((found.fromTable = true ↔ asked = 0) ↔ ¬ cache.table.Lost dataType tag age) := by
  refine ⟨RoutingCache.isTruthful_iff, fun found asked h => ?_⟩
  by_cases hempty : age < routingLifetime ∧ tag.isEmpty = true
  · refine iff_of_true (h.toldSource_of_isEmpty hempty.1 hempty.2) fun hlost => ?_
    have hid := hlost.isId
    rw [isStreamId_of_isEmpty hempty.2] at hid
    exact Bool.false_ne_true hid
  · exact h.toldSource_of_not_isEmpty hempty

/-! ## Look-ups of several callers -/

/-- Two callers that look up one data type each with a default tag, one after the other. -/
def twoLookUps : List CallerAction :=
  [.begin 0 (.outputStream "LINUX_PERF_BLOB" "oneagent.containerInsights.LINUX_PERF_BLOB" 0),
    .proceed 0,
    .begin 1 (.outputStream "INSIGHTS_METRICS_BLOB"
      "oneagent.containerInsights.INSIGHTS_METRICS_BLOB" 0),
    .proceed 1]

/-- The cache after that, if each answer has the data type of its caller alone. -/
def afterTwoLookUps : RoutingCache Collector.FixedAnswers :=
  ((SharedCache.start Collector.comingAndGoing).run twoLookUps).cache

/-- A look-up without a tag that the others overtake after its first stage still asks. -/
theorem toldSource_iff_overtaken :
    RoutingCall.Course (.start Collector.comingAndGoing) (.outputStream "LINUX_PERF_BLOB" "" 0)
        ⟨"dcr-p", false⟩ 1 ∧
      ((false = true ↔ 1 = 0) ↔
        ¬ (RoutingCache.start Collector.comingAndGoing).table.Lost "LINUX_PERF_BLOB" "" 0) := by
  have hnext : ((RoutingCall.outputStream "LINUX_PERF_BLOB" "" 0).first.perform
      (RoutingCache.start Collector.comingAndGoing)).1 =
        .goesOn (.resolve "LINUX_PERF_BLOB" false) := by decide +kernel
  have hfound : ((Stage.resolve "LINUX_PERF_BLOB" false).perform afterTwoLookUps).1 =
      .returns ⟨"dcr-p", false⟩ := by decide +kernel
  have hcourse : RoutingCall.Course (.start Collector.comingAndGoing)
      (.outputStream "LINUX_PERF_BLOB" "" 0) ⟨"dcr-p", false⟩ 1 :=
    .inTwo afterTwoLookUps hnext hfound
  exact ⟨hcourse, (toldSource_iff _ _ _ _).2 _ _ hcourse⟩

/-- The first of the two callers comes back after ten seconds, asks, and says that it has not. -/
theorem not_isTruthful_afterTwoLookUps :
    ¬ afterTwoLookUps.IsTruthful "LINUX_PERF_BLOB" "dcr-p" 10000000 := by
  have hflag : (afterTwoLookUps.outputStream "LINUX_PERF_BLOB" "dcr-p" 10000000).value.1 =
      ⟨"dcr-p", true⟩ := by decide +kernel
  have hasks : (afterTwoLookUps.outputStream "LINUX_PERF_BLOB" "dcr-p" 10000000).fetches = 1 := by
    decide +kernel
  rw [RoutingCache.IsTruthful, hflag, hasks]
  decide

end PerfRelay
