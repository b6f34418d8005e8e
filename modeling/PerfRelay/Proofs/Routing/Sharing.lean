import Mathlib.Logic.Function.Basic
import PerfRelay.Proofs.Routing.Lookups

/-!
# Collectors that share a routing cache

Any number of callers share one cache.  What a caller does under the lock happens at one go, but a
look-up for a data type without a stream may take the lock twice, and others may come in between.

Whatever the callers do and whatever the fetcher answers, the table stems as a whole from the last
answer with configurations, and a stream that is given out is the one in the table at that moment.

Main results:

- Theorem `undisturbed_first`: the stages of a call into which nobody comes make up the call.
- Theorem `run_forget`: that the answers are recorded changes nothing.
- Theorem `run_stemsFrom`: the table and the streams that are given out, over all runs.
-/

namespace PerfRelay

/-! ## Calls and their stages -/

/-- A call of the cache. -/
inductive RoutingCall where
  | resolve (dataType : String) (useTable : Bool)
  | outputStream (dataType tag : String) (age : Nat)
deriving DecidableEq, Repr

/-- What a caller does under the lock at one go. -/
inductive Stage where
  /-- Looks whether there is a table that tells of a data type without a stream. -/
  | check (dataType : String) (useTable : Bool)
  /-- Looks the data type up. -/
  | resolve (dataType : String) (useTable : Bool)
deriving DecidableEq, Repr

/-- What a stage leads to. -/
inductive Outcome where
  /-- The caller has to take the lock once more. -/
  | goesOn (next : Stage)
  /-- The call is over. -/
  | returns (found : RoutingCache.Resolution)
deriving DecidableEq, Repr

/-- The data type of a call. -/
def RoutingCall.dataType : RoutingCall → String
  | .resolve dataType _ => dataType
  | .outputStream dataType _ _ => dataType

/-- What a call does first under the lock. -/
def RoutingCall.first : RoutingCall → Stage
  | .resolve dataType useTable => .resolve dataType useTable
  | .outputStream dataType tag age =>
    let fresh := decide (age < routingLifetime)
    if fresh && tag.isEmpty then .check dataType (fresh && isStreamId tag)
    else .resolve dataType (fresh && isStreamId tag)

/-- The data type of a stage. -/
def Stage.dataType : Stage → String
  | .check dataType _ => dataType
  | .resolve dataType _ => dataType

theorem RoutingCall.dataType_first (call : RoutingCall) : call.first.dataType = call.dataType := by
  cases call with
  | resolve dataType useTable => rfl
  | outputStream dataType tag age =>
    simp only [first]
    split
    · rfl
    · rfl

namespace Stage

variable {φ : Type} [ConfigurationFetcher φ]

/-- Goes through a stage. -/
def perform (cache : RoutingCache φ) : Stage → Outcome × RoutingCache φ
  | .check dataType useTable =>
    if 0 < cache.table.rebuilds then
      (.returns ⟨cache.table.streamOf dataType, true⟩, cache)
    else (.goesOn (.resolve dataType useTable), cache)
  | .resolve dataType useTable =>
    let (stream, cache) := (cache.resolve dataType useTable).value
    (.returns ⟨stream, useTable⟩, cache)

/-- Goes through a stage and the next one if there is one, while nobody else comes in. -/
def undisturbed (cache : RoutingCache φ) (stage : Stage) : Outcome × RoutingCache φ :=
  match stage.perform cache with
  | (.goesOn next, cache) => next.perform cache
  | (.returns found, cache) => (.returns found, cache)

/-- A stage leaves the cache as it is or asks once. -/
theorem perform_cache (cache : RoutingCache φ) (stage : Stage) :
    (stage.perform cache).2 = cache ∨ (stage.perform cache).2 = cache.asked := by
  cases stage with
  | check dataType useTable =>
    refine .inl ?_
    simp only [perform]
    split
    · rfl
    · rfl
  | resolve dataType useTable =>
    rcases cache.resolve_cases dataType useTable with ⟨-, -, hvalue⟩ | ⟨-, hvalue⟩
    · exact .inl (by simp only [perform, hvalue])
    · exact .inr (by simp only [perform, hvalue])

/-- The stream that a stage gives is the one in the table that it leaves. -/
theorem perform_returns {cache : RoutingCache φ} {stage : Stage}
    {found : RoutingCache.Resolution} (h : (stage.perform cache).1 = .returns found) :
    found.stream = (stage.perform cache).2.table.streamOf stage.dataType := by
  cases stage with
  | check dataType useTable =>
    simp only [perform] at h ⊢
    split at h
    · cases h
      rw [if_pos ‹_›]
      rfl
    · cases h
  | resolve dataType useTable =>
    rcases cache.resolve_cases dataType useTable with ⟨-, -, hvalue⟩ | ⟨-, hvalue⟩
    · simp only [perform, hvalue] at h ⊢
      cases h
      rfl
    · simp only [perform, hvalue] at h ⊢
      cases h
      rfl

/-- A further stage is about the same data type. -/
theorem perform_goesOn {cache : RoutingCache φ} {stage next : Stage}
    (h : (stage.perform cache).1 = .goesOn next) : next.dataType = stage.dataType := by
  cases stage with
  | check dataType useTable =>
    simp only [perform] at h
    split at h
    · cases h
    · cases h
      rfl
  | resolve dataType useTable => cases h

end Stage

/-- What a call of the cache gives as a whole, and the cache after it. -/
def RoutingCall.answer {φ : Type} [ConfigurationFetcher φ] (cache : RoutingCache φ) :
    RoutingCall → RoutingCache.Resolution × RoutingCache φ
  | .resolve dataType useTable =>
    let (stream, cache) := (cache.resolve dataType useTable).value
    (⟨stream, useTable⟩, cache)
  | .outputStream dataType tag age => (cache.outputStream dataType tag age).value

/-- The stages of a call into which nobody comes make up the call. -/
theorem undisturbed_first {φ : Type} [ConfigurationFetcher φ] (cache : RoutingCache φ)
    (call : RoutingCall) :
    call.first.undisturbed cache = (.returns (call.answer cache).1, (call.answer cache).2) := by
  cases call with
  | resolve dataType useTable => rfl
  | outputStream dataType tag age =>
    simp only [RoutingCall.first, RoutingCall.answer, RoutingCache.outputStream]
    by_cases hoptedOut : (decide (age < routingLifetime) && tag.isEmpty) = true
    · by_cases hrebuilds : 0 < cache.table.rebuilds
      · simp [hoptedOut, Stage.undisturbed, Stage.perform, hrebuilds]
      · simp [hoptedOut, Stage.undisturbed, Stage.perform, hrebuilds]
    · have htable : ¬ (decide (age < routingLifetime) && tag.isEmpty &&
          decide (0 < cache.table.rebuilds)) = true := by
        intro h
        rw [Bool.and_eq_true] at h
        exact hoptedOut h.1
      rw [if_neg hoptedOut, if_neg htable]
      rfl

/-! ## Callers -/

/-- A call that is not over, and what it has to do next under the lock. -/
structure OpenCall where
  call : RoutingCall
  stage : Stage
deriving DecidableEq, Repr

/-- A cache and what each of its callers is at. -/
structure SharedCache (φ : Type) where
  cache : RoutingCache φ
  openCalls : Nat → Option OpenCall

/-- Something that a caller does. -/
inductive CallerAction where
  /-- Begins a call, unless the last one is not over. -/
  | begin (caller : Nat) (call : RoutingCall)
  /-- Goes through the next stage of the call. -/
  | proceed (caller : Nat)
deriving DecidableEq, Repr

/-- The answer to a call. -/
structure CallReply where
  call : RoutingCall
  found : RoutingCache.Resolution
deriving DecidableEq, Repr

namespace SharedCache

variable {φ : Type}

/-- A cache that knows nothing, and no calls. -/
def start (fetcher : φ) : SharedCache φ := ⟨.start fetcher, fun _ => none⟩

/-- Changes what a caller is at. -/
def setCall (shared : SharedCache φ) (caller : Nat) (openCall : Option OpenCall) : SharedCache φ :=
  { shared with openCalls := Function.update shared.openCalls caller openCall }

@[simp]
theorem openCalls_setCall_self (shared : SharedCache φ) (caller : Nat)
    (openCall : Option OpenCall) : (shared.setCall caller openCall).openCalls caller = openCall :=
  Function.update_self ..

@[simp]
theorem openCalls_setCall_of_ne (shared : SharedCache φ) {caller other : Nat} (h : other ≠ caller)
    (openCall : Option OpenCall) :
    (shared.setCall caller openCall).openCalls other = shared.openCalls other :=
  Function.update_of_ne h ..

variable [ConfigurationFetcher φ]

/-- Goes through the next stage of a call. -/
def advance (shared : SharedCache φ) (caller : Nat) (openCall : OpenCall) :
    Option CallReply × SharedCache φ :=
  let (outcome, cache) := openCall.stage.perform shared.cache
  match outcome with
  | .goesOn next =>
    (none, { shared with cache }.setCall caller (some { openCall with stage := next }))
  | .returns found => (some ⟨openCall.call, found⟩, { shared with cache }.setCall caller none)

/-- What an action leads to, and the reply if a call is over. -/
def step (shared : SharedCache φ) : CallerAction → Option CallReply × SharedCache φ
  | .begin caller call =>
    match shared.openCalls caller with
    | none => (none, shared.setCall caller (some ⟨call, call.first⟩))
    | some _ => (none, shared)
  | .proceed caller =>
    match shared.openCalls caller with
    | none => (none, shared)
    | some openCall => shared.advance caller openCall

/-- What some actions lead to. -/
def run (shared : SharedCache φ) (actions : List CallerAction) : SharedCache φ :=
  actions.foldl (fun shared action => (shared.step action).2) shared

@[simp]
theorem run_append (shared : SharedCache φ) (actions : List CallerAction) (action : CallerAction) :
    shared.run (actions ++ [action]) = ((shared.run actions).step action).2 :=
  List.foldl_append

/-- The stages of the open calls are about the data types of the calls. -/
def Minded (shared : SharedCache φ) : Prop :=
  ∀ caller openCall, shared.openCalls caller = some openCall →
    openCall.stage.dataType = openCall.call.dataType

omit [ConfigurationFetcher φ] in
theorem minded_start (fetcher : φ) : (start fetcher).Minded :=
  fun _ _ h => nomatch h

omit [ConfigurationFetcher φ] in
theorem Minded.setCall {shared : SharedCache φ} (h : shared.Minded) {caller : Nat}
    {openCall : Option OpenCall}
    (hcall : ∀ new ∈ openCall, new.stage.dataType = new.call.dataType) :
    (shared.setCall caller openCall).Minded := by
  intro other found hfound
  by_cases hother : other = caller
  · subst hother
    rw [openCalls_setCall_self] at hfound
    exact hcall found hfound
  · rw [openCalls_setCall_of_ne _ hother] at hfound
    exact h other found hfound

theorem Minded.step {shared : SharedCache φ} (h : shared.Minded) (action : CallerAction) :
    (shared.step action).2.Minded := by
  cases action with
  | begin caller call =>
    cases hcall : shared.openCalls caller with
    | none =>
      simp only [SharedCache.step, hcall]
      refine h.setCall fun new hnew => ?_
      cases hnew
      exact call.dataType_first
    | some openCall => simpa only [SharedCache.step, hcall] using h
  | proceed caller =>
    cases hcall : shared.openCalls caller with
    | none => simpa only [SharedCache.step, hcall] using h
    | some openCall =>
      have hcache : ∀ cache : RoutingCache φ, Minded ⟨cache, shared.openCalls⟩ := fun _ => h
      simp only [SharedCache.step, hcall, advance]
      cases houtcome : (openCall.stage.perform shared.cache).1 with
      | goesOn next =>
        refine (hcache _).setCall fun new hnew => ?_
        cases hnew
        exact (Stage.perform_goesOn houtcome).trans (h caller openCall hcall)
      | returns found => exact (hcache _).setCall nofun

theorem minded_run (fetcher : φ) (actions : List CallerAction) :
    ((start fetcher).run actions).Minded := by
  induction actions using List.reverseRecOn with
  | nil => exact minded_start fetcher
  | append_singleton actions action ih =>
    rw [run_append]
    exact ih.step action

/-- The stream of a reply is the one in the table that the action leaves. -/
theorem step_reply {shared : SharedCache φ} (h : shared.Minded) {action : CallerAction}
    {reply : CallReply} (hreply : (shared.step action).1 = some reply) :
    reply.found.stream =
      (shared.step action).2.cache.table.streamOf reply.call.dataType := by
  cases action with
  | begin caller call =>
    simp only [step] at hreply
    split at hreply
    · cases hreply
    · cases hreply
  | proceed caller =>
    cases hcall : shared.openCalls caller with
    | none =>
      simp only [step, hcall] at hreply
      cases hreply
    | some openCall =>
      simp only [step, hcall, advance] at hreply ⊢
      cases houtcome : (openCall.stage.perform shared.cache).1 with
      | goesOn next =>
        rw [houtcome] at hreply
        cases hreply
      | returns found =>
        rw [houtcome] at hreply
        cases hreply
        rw [← h caller openCall hcall]
        exact Stage.perform_returns houtcome

/-- An action leaves the cache as it is or asks once. -/
theorem step_cache (shared : SharedCache φ) (action : CallerAction) :
    (shared.step action).2.cache = shared.cache ∨
      (shared.step action).2.cache = shared.cache.asked := by
  cases action with
  | begin caller call =>
    refine .inl ?_
    simp only [step]
    split
    · rfl
    · rfl
  | proceed caller =>
    cases hcall : shared.openCalls caller with
    | none => exact .inl (by simp only [step, hcall])
    | some openCall =>
      have hcache : (shared.step (.proceed caller)).2.cache =
          (openCall.stage.perform shared.cache).2 := by
        simp only [step, hcall, advance]
        split
        · rfl
        · rfl
      rw [hcache]
      exact openCall.stage.perform_cache shared.cache

end SharedCache

/-! ## Recorded answers -/

/-- A fetcher whose answers are kept, the first one first. -/
structure Recorder (φ : Type) where
  fetcher : φ
  answers : List (List Configuration)

namespace Recorder

variable {φ : Type}

/-- A fetcher that has not been asked. -/
def start (fetcher : φ) : Recorder φ := ⟨fetcher, []⟩

instance [ConfigurationFetcher φ] : ConfigurationFetcher (Recorder φ) where
  fetch recorder :=
    (fun (configurations, fetcher) =>
      (configurations, ⟨fetcher, recorder.answers ++ [configurations]⟩)) <$>
      ConfigurationFetcher.fetch recorder.fetcher

end Recorder

/-- The cache without the record. -/
def RoutingCache.forget {φ : Type} (cache : RoutingCache (Recorder φ)) : RoutingCache φ :=
  ⟨cache.fetcher.fetcher, cache.table⟩

namespace SharedCache

variable {φ : Type}

/-- The same without the record. -/
def forget (shared : SharedCache (Recorder φ)) : SharedCache φ :=
  ⟨shared.cache.forget, shared.openCalls⟩

variable [ConfigurationFetcher φ]

theorem resolve_forget (cache : RoutingCache (Recorder φ)) (dataType : String) (useTable : Bool) :
    (cache.forget.resolve dataType useTable).value =
      ((cache.resolve dataType useTable).value.1,
        (cache.resolve dataType useTable).value.2.forget) := by
  rcases cache.resolve_cases dataType useTable with ⟨huse, hknows, hvalue⟩ | ⟨hasks, hvalue⟩
  · rcases cache.forget.resolve_cases dataType useTable with ⟨-, -, hforget⟩ | ⟨hasks, -⟩
    · rw [hvalue, hforget]
      rfl
    · exact absurd ⟨huse, hknows⟩ hasks
  · rcases cache.forget.resolve_cases dataType useTable with ⟨huse, hknows, -⟩ | ⟨-, hforget⟩
    · exact absurd ⟨huse, hknows⟩ hasks
    · rw [hvalue, hforget]
      rfl

theorem perform_forget (cache : RoutingCache (Recorder φ)) (stage : Stage) :
    stage.perform cache.forget =
      ((stage.perform cache).1, (stage.perform cache).2.forget) := by
  cases stage with
  | check dataType useTable =>
    by_cases hrebuilds : 0 < cache.table.rebuilds
    · have hforget : 0 < cache.forget.table.rebuilds := hrebuilds
      simp only [Stage.perform, if_pos hrebuilds, if_pos hforget]
      rfl
    · have hforget : ¬ 0 < cache.forget.table.rebuilds := hrebuilds
      simp only [Stage.perform, if_neg hrebuilds, if_neg hforget]
  | resolve dataType useTable => simp only [Stage.perform, resolve_forget]

theorem step_forget (shared : SharedCache (Recorder φ)) (action : CallerAction) :
    shared.forget.step action = ((shared.step action).1, (shared.step action).2.forget) := by
  cases action with
  | begin caller call =>
    have hcalls : shared.forget.openCalls = shared.openCalls := rfl
    cases hcall : shared.openCalls caller with
    | none =>
      simp only [step, hcalls, hcall]
      rfl
    | some openCall => simp only [step, hcalls, hcall]
  | proceed caller =>
    have hcalls : shared.forget.openCalls = shared.openCalls := rfl
    cases hcall : shared.openCalls caller with
    | none => simp only [step, hcalls, hcall]
    | some openCall =>
      have hperform : openCall.stage.perform shared.forget.cache =
          ((openCall.stage.perform shared.cache).1,
            (openCall.stage.perform shared.cache).2.forget) :=
        perform_forget shared.cache openCall.stage
      simp only [step, hcalls, hcall, advance, hperform]
      cases (openCall.stage.perform shared.cache).1 with
      | goesOn next => rfl
      | returns found => rfl

/-- A run is the same with the answers recorded. -/
theorem run_forget (shared : SharedCache (Recorder φ)) (actions : List CallerAction) :
    shared.forget.run actions = (shared.run actions).forget := by
  induction actions using List.reverseRecOn with
  | nil => rfl
  | append_singleton actions action ih => rw [run_append, run_append, ih, step_forget]

/-- The answers that the fetcher gives in a run from a cache that knows nothing. -/
def answers (fetcher : φ) (actions : List CallerAction) : List (List Configuration) :=
  ((start (Recorder.start fetcher)).run actions).cache.fetcher.answers

/-! ## Runs -/

/-- What is recorded makes the table.  The induction is on the actions: each one leaves the cache as
it is, or puts one answer both into the record and into the table. -/
theorem recorded_table (fetcher : φ) (actions : List CallerAction) :
    ((start (Recorder.start fetcher)).run actions).cache.table =
      .ofAnswers (answers fetcher actions) := by
  induction actions using List.reverseRecOn with
  | nil => rfl
  | append_singleton actions action ih =>
    rw [answers, run_append]
    rcases step_cache ((start (Recorder.start fetcher)).run actions) action with hcache | hcache
    · rw [hcache]
      exact ih
    · rw [hcache]
      have hanswers : ((start (Recorder.start fetcher)).run actions).cache.asked.fetcher.answers =
          answers fetcher actions ++
            [((start (Recorder.start fetcher)).run actions).cache.nextAnswer.1] := rfl
      rw [hanswers, RoutingTable.ofAnswers_append, ← ih]
      rfl

theorem run_table (fetcher : φ) (actions : List CallerAction) :
    ((start fetcher).run actions).cache.table = .ofAnswers (answers fetcher actions) := by
  have hstart : start fetcher = (start (Recorder.start fetcher)).forget := rfl
  rw [hstart, run_forget]
  exact recorded_table fetcher actions

/-- At every point of every run the table as a whole stems from the last answer with configurations.
The next action changes it only by such an answer, and gives out the stream that is in the table
then. -/
theorem run_stemsFrom (fetcher : φ) (actions : List CallerAction) :
    ((start fetcher).run actions).cache.table.StemsFrom (answers fetcher actions) ∧
      ∀ action,
        (RoutingTable.telling (answers fetcher (actions ++ [action])) =
            RoutingTable.telling (answers fetcher actions) →
          ((start fetcher).run (actions ++ [action])).cache.table =
            ((start fetcher).run actions).cache.table) ∧
        ∀ reply, (((start fetcher).run actions).step action).1 = some reply →
          reply.found.stream =
            ((start fetcher).run (actions ++ [action])).cache.table.streamOf
              reply.call.dataType := by
  refine ⟨?_, fun action => ⟨fun htelling => ?_, fun reply hreply => ?_⟩⟩
  · rw [run_table]
    exact RoutingTable.stemsFrom_ofAnswers _
  · rw [run_table, run_table, ← RoutingTable.ofAnswers_telling, htelling,
      RoutingTable.ofAnswers_telling]
  · rw [run_append]
    exact step_reply (minded_run fetcher actions) hreply

end SharedCache

end PerfRelay
