import Mathlib.Data.List.Induction
import PerfRelay.Routing.Cache

/-!
# What a look-up does to the routing table

A look-up leaves the cache as it is, or it asks the fetcher once and enters the answer.  Either way
the stream that it gives is the one in the table that it leaves.

Main results:

- Theorem `stemsFrom_ofAnswers`: a table as a whole stems from one answer.
- Theorem `resolve_cases`: the two ways of a look-up.
- Theorems `outputStream_of_answers` and `outputStream_of_not_answers`: the same for a look-up with
  a tag in use.
- Theorem `outputStream_fromTable_iff`: when a look-up counts as one in the table.
-/

namespace PerfRelay

theorem isStreamId_of_isEmpty {tag : String} (h : tag.isEmpty = true) : isStreamId tag = false := by
  obtain rfl : tag = "" := by simpa using h
  decide

namespace RoutingTable

/-! ## Answers -/

/-- The table after some answers, the first one first. -/
def ofAnswers (answers : List (List Configuration)) : RoutingTable :=
  answers.foldl absorb empty

/-- The answers with configurations. -/
def telling (answers : List (List Configuration)) : List (List Configuration) :=
  answers.filter (!·.isEmpty)

@[simp]
theorem ofAnswers_append (answers : List (List Configuration))
    (configurations : List Configuration) :
    ofAnswers (answers ++ [configurations]) = (ofAnswers answers).absorb configurations :=
  List.foldl_append

theorem rebuilds_le_absorb (table : RoutingTable) (configurations : List Configuration) :
    table.rebuilds ≤ (table.absorb configurations).rebuilds := by
  cases configurations with
  | nil => exact Nat.le_refl _
  | cons first rest => exact Nat.le_succ _

@[simp]
theorem telling_append_nil (answers : List (List Configuration)) :
    telling (answers ++ [[]]) = telling answers := by
  simp [telling]

@[simp]
theorem telling_append_cons (answers : List (List Configuration)) (first : Configuration)
    (rest : List Configuration) :
    telling (answers ++ [first :: rest]) = telling answers ++ [first :: rest] := by
  simp [telling]

/-- Answers without configurations do not count. -/
theorem ofAnswers_telling (answers : List (List Configuration)) :
    ofAnswers (telling answers) = ofAnswers answers := by
  induction answers using List.reverseRecOn with
  | nil => rfl
  | append_singleton answers configurations ih =>
    cases configurations with
    | nil => rw [telling_append_nil, ofAnswers_append, absorb_nil, ih]
    | cons first rest => rw [telling_append_cons, ofAnswers_append, ofAnswers_append, ih]

/-- The mapping and the settings stem from the same answer, the last one with configurations, and
every such answer has been counted. -/
structure StemsFrom (table : RoutingTable) (answers : List (List Configuration)) : Prop where
  rebuilds_eq : table.rebuilds = (telling answers).length
  of_last : ∀ configurations, (telling answers).getLast? = some configurations →
    table.mapping = streamMapping configurations ∧ table.settings = latestSettings configurations
  of_none : telling answers = [] → table.mapping = .empty ∧ table.settings = none

/-- The induction is on the answers, from the last one on. -/
theorem stemsFrom_ofAnswers (answers : List (List Configuration)) :
    (ofAnswers answers).StemsFrom answers := by
  induction answers using List.reverseRecOn with
  | nil => exact ⟨rfl, by simp [telling], fun _ => ⟨rfl, rfl⟩⟩
  | append_singleton answers configurations ih =>
    cases configurations with
    | nil =>
      rw [ofAnswers_append, absorb_nil]
      exact ⟨by rw [telling_append_nil]; exact ih.rebuilds_eq,
        by rw [telling_append_nil]; exact ih.of_last, by rw [telling_append_nil]; exact ih.of_none⟩
    | cons first rest =>
      rw [ofAnswers_append, absorb_cons]
      refine ⟨?_, fun last hlast => ?_, fun hnone => ?_⟩
      · rw [telling_append_cons, List.length_append, ← ih.rebuilds_eq]
        rfl
      · rw [telling_append_cons, List.getLast?_concat] at hlast
        cases hlast
        exact ⟨rfl, rfl⟩
      · rw [telling_append_cons] at hnone
        simp at hnone

/-! ## Tables that no answer has made -/

/-- A table that no answer has made has no streams. -/
def Bare (table : RoutingTable) : Prop := table.rebuilds = 0 → table.mapping = .empty

theorem bare_empty : empty.Bare := fun _ => rfl

theorem Bare.absorb {table : RoutingTable} (h : table.Bare) (configurations : List Configuration) :
    (table.absorb configurations).Bare := by
  cases configurations with
  | nil => exact h
  | cons first rest => exact fun hrebuilds => absurd hrebuilds (Nat.succ_ne_zero _)

/-- The id of an output stream stems from an answer. -/
theorem Bare.rebuilds_pos {table : RoutingTable} (h : table.Bare) {dataType : String}
    (hid : isStreamId (table.streamOf dataType) = true) : 0 < table.rebuilds := by
  by_contra hrebuilds
  have hmapping : table.mapping = .empty := h (by omega)
  rw [streamOf, hmapping, Dictionary.get?_empty] at hid
  exact absurd hid (by decide)

/-! ## Tables that answer -/

/-- Whether the table is trusted for a tag in use, as long as it is recent: it is for the id of an
output stream, and for none once there is a table. -/
def Trusts (table : RoutingTable) (tag : String) : Prop :=
  isStreamId tag = true ∨ tag.isEmpty = true ∧ 0 < table.rebuilds

/-- Whether a look-up with a tag in use is answered from the table: that is recent and trusted for
the tag and, for the id of an output stream, knows the data type. -/
structure Answers (table : RoutingTable) (dataType tag : String) (age : Nat) : Prop where
  recent : age < routingLifetime
  trusts : table.Trusts tag
  knows : isStreamId tag = true → (table.mapping.get? dataType).isSome = true

end RoutingTable

namespace RoutingCache

/-! ## Look-ups -/

variable {φ : Type} [ConfigurationFetcher φ]

/-- The answer of the fetcher if it is asked now, and the fetcher after that. -/
def nextAnswer (cache : RoutingCache φ) : List Configuration × φ :=
  (ConfigurationFetcher.fetch cache.fetcher).value

/-- The cache after the fetcher was asked. -/
def asked (cache : RoutingCache φ) : RoutingCache φ :=
  ⟨cache.nextAnswer.2, cache.table.absorb cache.nextAnswer.1⟩

theorem resolveAnew_value (cache : RoutingCache φ) (dataType : String) :
    (cache.resolveAnew dataType).value = (cache.asked.table.streamOf dataType, cache.asked) :=
  rfl

/-- A look-up is answered from the table if that is wanted and possible, and else asks. -/
theorem resolve_cases (cache : RoutingCache φ) (dataType : String) (useTable : Bool) :
    (useTable = true ∧ (cache.table.mapping.get? dataType).isSome ∧
      (cache.resolve dataType useTable).value = (cache.table.streamOf dataType, cache)) ∨
    (¬ (useTable = true ∧ (cache.table.mapping.get? dataType).isSome) ∧
      (cache.resolve dataType useTable).value =
        (cache.asked.table.streamOf dataType, cache.asked)) := by
  cases useTable with
  | false =>
    refine .inr ⟨fun h => absurd h.1 Bool.false_ne_true, ?_⟩
    exact resolveAnew_value cache dataType
  | true =>
    cases hget : cache.table.mapping.get? dataType with
    | none =>
      refine .inr ⟨fun h => absurd h.2 Bool.false_ne_true, ?_⟩
      simp only [resolve, hget, if_true]
      exact resolveAnew_value cache dataType
    | some stream =>
      refine .inl ⟨rfl, rfl, ?_⟩
      rw [resolve_of_cached hget, RoutingTable.streamOf, hget]
      rfl

/-- A look-up with a tag in use that is answered from the table does nothing else. -/
theorem outputStream_eq_pure {cache : RoutingCache φ} {dataType tag : String} {age : Nat}
    (h : cache.table.Answers dataType tag age) :
    cache.outputStream dataType tag age = pure (⟨cache.table.streamOf dataType, true⟩, cache) := by
  simp only [outputStream]
  rcases h.trusts with hid | ⟨hempty, hrebuilds⟩
  · have htag : tag.isEmpty = false := by
      by_contra htag
      rw [isStreamId_of_isEmpty (by simpa using htag)] at hid
      exact Bool.false_ne_true hid
    have huse : (decide (age < routingLifetime) && isStreamId tag) = true := by
      simp [h.recent, hid]
    obtain ⟨stream, hstream⟩ := Option.isSome_iff_exists.1 (h.knows hid)
    rw [if_neg (by simp [htag]), huse, resolve_of_cached hstream, RoutingTable.streamOf, hstream]
    rfl
  · rw [if_pos (by simp [h.recent, hempty, hrebuilds])]

/-- Any other look-up with a tag in use asks. -/
theorem outputStream_eq_anew {cache : RoutingCache φ} {dataType tag : String} {age : Nat}
    (h : ¬ cache.table.Answers dataType tag age) :
    cache.outputStream dataType tag age =
      (fun found => (⟨found.1, decide (age < routingLifetime) && isStreamId tag⟩, found.2)) <$>
        cache.resolveAnew dataType := by
  have hoptedOut : ¬ (age < routingLifetime ∧ tag.isEmpty = true ∧ 0 < cache.table.rebuilds) := by
    rintro ⟨hrecent, hempty, hrebuilds⟩
    refine h ⟨hrecent, .inr ⟨hempty, hrebuilds⟩, fun hid => ?_⟩
    rw [isStreamId_of_isEmpty hempty] at hid
    exact absurd hid Bool.false_ne_true
  have hresolve : cache.resolve dataType (decide (age < routingLifetime) && isStreamId tag) =
      cache.resolveAnew dataType := by
    by_cases huse : (decide (age < routingLifetime) && isStreamId tag) = true
    · have hunknown : cache.table.mapping.get? dataType = none := by
        by_contra hknown
        rw [Bool.and_eq_true, decide_eq_true_eq] at huse
        exact h ⟨huse.1, .inl huse.2, fun _ => Option.isSome_iff_ne_none.2 hknown⟩
      simp only [resolve, huse, if_true, hunknown]
    · simp only [resolve, if_neg huse]
  unfold outputStream
  rw [if_neg (by simpa [and_assoc] using hoptedOut)]
  simp only [hresolve]

theorem outputStream_of_answers {cache : RoutingCache φ} {dataType tag : String} {age : Nat}
    (h : cache.table.Answers dataType tag age) :
    (cache.outputStream dataType tag age).value =
      (⟨cache.table.streamOf dataType, true⟩, cache) := by
  rw [outputStream_eq_pure h]
  rfl

theorem outputStream_of_not_answers {cache : RoutingCache φ} {dataType tag : String} {age : Nat}
    (h : ¬ cache.table.Answers dataType tag age) :
    (cache.outputStream dataType tag age).value =
      (⟨cache.asked.table.streamOf dataType, decide (age < routingLifetime) && isStreamId tag⟩,
        cache.asked) := by
  rw [outputStream_eq_anew h, Noted.value_map, resolveAnew_value]

/-- A look-up leaves the cache as it is or asks once. -/
theorem outputStream_cache (cache : RoutingCache φ) (dataType tag : String) (age : Nat) :
    (cache.outputStream dataType tag age).value.2 = cache ∨
      (cache.outputStream dataType tag age).value.2 = cache.asked := by
  by_cases h : cache.table.Answers dataType tag age
  · exact .inl (by rw [outputStream_of_answers h])
  · exact .inr (by rw [outputStream_of_not_answers h])

theorem rebuilds_le_outputStream (cache : RoutingCache φ) (dataType tag : String) (age : Nat) :
    cache.table.rebuilds ≤
      (cache.outputStream dataType tag age).value.2.table.rebuilds := by
  by_cases h : cache.table.Answers dataType tag age
  · exact Nat.le_of_eq (by rw [outputStream_of_answers h])
  · rw [outputStream_of_not_answers h]
    exact cache.table.rebuilds_le_absorb _

theorem bare_outputStream {cache : RoutingCache φ} (h : cache.table.Bare)
    (dataType tag : String) (age : Nat) :
    (cache.outputStream dataType tag age).value.2.table.Bare := by
  by_cases hanswers : cache.table.Answers dataType tag age
  · rw [outputStream_of_answers hanswers]
    exact h
  · rw [outputStream_of_not_answers hanswers]
    exact h.absorb _

/-- The stream that a look-up gives is the one in the table that it leaves. -/
theorem outputStream_stream (cache : RoutingCache φ) (dataType tag : String) (age : Nat) :
    (cache.outputStream dataType tag age).value.1.stream =
      (cache.outputStream dataType tag age).value.2.table.streamOf dataType := by
  by_cases h : cache.table.Answers dataType tag age
  · rw [outputStream_of_answers h]
  · rw [outputStream_of_not_answers h]

/-- A look-up counts as one in the table whenever that is recent and trusted for the tag, even if
the table does not know the data type and the fetcher is asked. -/
theorem outputStream_fromTable_iff (cache : RoutingCache φ) (dataType tag : String) (age : Nat) :
    (cache.outputStream dataType tag age).value.1.fromTable = true ↔
      age < routingLifetime ∧ cache.table.Trusts tag := by
  by_cases h : cache.table.Answers dataType tag age
  · rw [outputStream_of_answers h]
    exact iff_of_true rfl ⟨h.recent, h.trusts⟩
  · rw [outputStream_of_not_answers h]
    constructor
    · intro hflag
      rw [Bool.and_eq_true, decide_eq_true_eq] at hflag
      exact ⟨hflag.1, .inl hflag.2⟩
    · rintro ⟨hrecent, hid | ⟨hempty, hrebuilds⟩⟩
      · simp [hrecent, hid]
      · refine absurd ⟨hrecent, .inr ⟨hempty, hrebuilds⟩, fun hid => ?_⟩ h
        rw [isStreamId_of_isEmpty hempty] at hid
        exact absurd hid Bool.false_ne_true

end RoutingCache

end PerfRelay
