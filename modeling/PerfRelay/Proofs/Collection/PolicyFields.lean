import Mathlib.Data.List.Induction
import PerfRelay.Proofs.Collection.Bearings
import PerfRelay.Proofs.Collection.Occasions
import PerfRelay.Proofs.Collection.Scripts
import PerfRelay.Proofs.Configuration.LogRoutes
import PerfRelay.Proofs.Configuration.Spellings

/-!
# Policies field by field

A policy is made afresh from settings that are not empty, and nothing of the policy before it is
left.  Each of its fields is made from the value under one name, so whatever else the settings hold,
right or wrong, makes no difference to that field.

A collector has either the policy that it began with or one that some settings have asked for, so
its interval is a whole number of minutes unless it is the one that was chosen for it.

Main results:

- Theorem `Field.agrees_resolve`: a field depends on the value under its own name alone.
- Theorem `exists_resolve_tickOn`: what a tick can do to a policy.
- Theorem `policy_fieldwise`: what policies are made of, and which intervals come up in runs.
-/

namespace PerfRelay

namespace Policy

/-! ## Fields -/

/-- The fields of a policy. -/
inductive Field where
  | interval
  | namespaces
  | filteringMode

namespace Field

/-- The name of the setting that a field is made from. -/
def settingName : Field → String
  | interval => Interval.settingName
  | namespaces => Namespaces.settingName
  | filteringMode => modeName

/-- Two policies are the same in a field. -/
def Agrees (first second : Policy) : Field → Prop
  | interval => first.intervalSeconds = second.intervalSeconds
  | namespaces => first.namespaces = second.namespaces
  | filteringMode => first.filteringMode = second.filteringMode

end Field

variable {a b : Settings}

theorem resolve_of_isEmpty {settings : Option Settings}
    (h : ∀ given ∈ settings, given.isEmpty = true) (prior : Policy) :
    resolve settings prior = prior := by
  have hnone : settings.filter (!·.isEmpty) = none := by
    rw [Option.filter_eq_none_iff]
    intro given hgiven
    simp [h given hgiven]
  rw [resolve, hnone]

theorem resolve_of_not_isEmpty (h : a.isEmpty = false) (prior : Policy) :
    resolve (some a) prior = ofSettings a := by
  simp [resolve, Option.filter, h]

/-- A field depends on the value under its own name alone. -/
theorem Field.agrees_ofSettings (field : Field)
    (h : a.get? field.settingName = b.get? field.settingName) :
    field.Agrees (ofSettings a) (ofSettings b) := by
  cases field with
  | interval =>
    rw [settingName] at h
    simp [Agrees, ofSettings, Interval.ofSettings, h]
  | namespaces =>
    rw [settingName] at h
    simp [Agrees, ofSettings, Namespaces.ofSettings, h]
  | filteringMode =>
    rw [settingName] at h
    simp [Agrees, ofSettings, modeOf, h]

theorem Field.agrees_resolve (field : Field) (ha : a.isEmpty = false) (hb : b.isEmpty = false)
    (h : a.get? field.settingName = b.get? field.settingName) (prior other : Policy) :
    field.Agrees (resolve (some a) prior) (resolve (some b) other) := by
  rw [resolve_of_not_isEmpty ha, resolve_of_not_isEmpty hb]
  exact field.agrees_ofSettings h

/-! ## What the fields can be -/

/-- A number of seconds that an interval setting can stand for. -/
def IsSetInterval (seconds : Nat) : Prop :=
  ∃ n, 1 ≤ n ∧ n ≤ 30 ∧ seconds = 60 * n

theorem isSetInterval_ofSettings (settings : Settings) :
    IsSetInterval (ofSettings settings).intervalSeconds := by
  simp only [ofSettings, Interval.ofSettings]
  cases hseconds : Interval.seconds? (settings.get? Interval.settingName) with
  | none => exact ⟨1, by simp [Interval.defaultSeconds]⟩
  | some seconds =>
    obtain ⟨value, -, hread⟩ := Interval.seconds?_eq_some_iff.1 hseconds
    exact Interval.read_eq_ok hread

/-- What a policy that settings ask for is made of. -/
structure AskedFor (settings : Settings) (policy : Policy) : Prop where
  interval : IsSetInterval policy.intervalSeconds
  namespaces : ∀ name, name ∈ policy.namespaces.toList ↔
    ∃ entries text, settings.get? Namespaces.settingName = some (.array entries) ∧
      Json.Value.string text ∈ entries ∧ lowerCase text = name
  nodup : policy.namespaces.toList.Nodup

theorem askedFor_ofSettings (settings : Settings) : AskedFor settings (ofSettings settings) where
  interval := isSetInterval_ofSettings settings
  namespaces _ := Namespaces.mem_ofSettings_iff
  nodup := NameSet.nodup_toList _

theorem isSetInterval_resolve {settings : Option Settings} {prior : Policy} :
    resolve settings prior = prior ∨ IsSetInterval (resolve settings prior).intervalSeconds := by
  unfold resolve
  split
  · exact .inl rfl
  · exact .inr (isSetInterval_ofSettings _)

end Policy

/-! ## Runs -/

namespace Collector

variable {σ μ φ : Type} [ConfigurationFetcher φ] [MetricSource σ] [NodeLister μ]

/-- A tick makes the policy from settings, or leaves it as it is. -/
theorem exists_resolve_tickOn (collector : Collector σ μ) (occasion : Occasion σ φ) :
    ∃ settings, (collector.tickOn occasion).value.policy =
      Policy.resolve settings collector.policy := by
  have hlookUp : (collector.tickOn occasion).value.bearings =
      ((collector.meeting occasion).lookUpStreams occasion.moment
        occasion.cache).value.1.bearings := by
    rw [tickOn, Noted.value_map, tick_value, cleaned, bearings_cleanUp, flushed,
      bearings_flushTelemetry, collected, bearings_collectAll, collecting, readied,
      bearings_refreshNodes]
  have hpolicy := congrArg Bearings.policy hlookUp
  by_cases hlooks : (collector.meeting occasion).options.looksUpStreams = true
  · rw [lookUpStreams, if_pos hlooks] at hpolicy
    exact ⟨_, hpolicy.trans refreshStreams_policy⟩
  · rw [lookUpStreams, if_neg hlooks] at hpolicy
    exact ⟨none, hpolicy⟩

/-- In every run the interval is the one that was chosen or one that settings have asked for. -/
theorem intervalSeconds_runOn (options : CollectorOptions) (source : σ) (lister : Option μ)
    (startedAt : Nat) (occasions : List (Occasion σ φ)) :
    ((start options source lister startedAt).runOn occasions).policy.intervalSeconds =
        max (options.runInterval / 1000000) 1 ∨
      Policy.IsSetInterval
        ((start options source lister startedAt).runOn occasions).policy.intervalSeconds := by
  induction occasions using List.reverseRecOn with
  | nil => exact .inl rfl
  | append_singleton occasions occasion ih =>
    obtain ⟨settings, hpolicy⟩ := exists_resolve_tickOn
      ((start options source lister startedAt).runOn occasions) occasion
    rw [runOn_append, hpolicy]
    rcases Policy.isSetInterval_resolve with hsame | hset
    · rw [hsame]
      exact ih
    · exact .inr hset

/-- Without settings a policy stays.  With settings the policy before has no say, and every field is
made from the value under its own name, however it is spelled; making the policy again changes
nothing.  In every run the interval that is given to the thread is the one that was chosen or a
number of minutes that settings have asked for. -/
theorem policy_fieldwise {a b : Settings} (ha : a.isEmpty = false) (hb : b.isEmpty = false)
    (prior other : Policy) (options : CollectorOptions) (source : σ) (lister : Option μ)
    (startedAt : Nat) (occasions : List (Occasion σ φ)) (cache : RoutingCache φ) :
    (∀ settings : Option Settings, (∀ given ∈ settings, given.isEmpty = true) →
      Policy.resolve settings prior = prior) ∧
    Policy.resolve (some a) other = Policy.resolve (some a) prior ∧
    (∀ settings : Option Settings,
      Policy.resolve settings (Policy.resolve settings prior) = Policy.resolve settings prior) ∧
    Policy.AskedFor a (Policy.resolve (some a) prior) ∧
    (∀ field : Policy.Field, a.get? field.settingName = b.get? field.settingName →
      field.Agrees (Policy.resolve (some a) prior) (Policy.resolve (some b) other)) ∧
    (∀ (field : Policy.Field) (raw changed : Dictionary Json.Value), a = .ofDictionary raw →
      b = .ofDictionary changed → Settings.SameUnder field.settingName raw changed →
        field.Agrees (Policy.resolve (some a) prior) (Policy.resolve (some b) other)) ∧
    ∃ seconds, (seconds = max (options.runInterval / 1000000) 1 ∨ Policy.IsSetInterval seconds) ∧
      0 < seconds ∧
      (PeriodicTask.interval
        ((start options source lister startedAt).runOn occasions, cache)).1 =
          some (seconds * 1000000) := by
  have hfields : ∀ field : Policy.Field, a.get? field.settingName = b.get? field.settingName →
      field.Agrees (Policy.resolve (some a) prior) (Policy.resolve (some b) other) :=
    fun field h => field.agrees_resolve ha hb h prior other
  refine ⟨fun settings h => Policy.resolve_of_isEmpty h prior, ?_,
    fun settings => Policy.resolve_resolve settings prior, ?_, hfields, ?_, ?_⟩
  · rw [Policy.resolve_of_not_isEmpty ha, Policy.resolve_of_not_isEmpty ha]
  · rw [Policy.resolve_of_not_isEmpty ha]
    exact Policy.askedFor_ofSettings a
  · rintro field raw changed rfl rfl hsame
    exact hfields field (Settings.get?_eq_of_sameUnder hsame)
  · have hrun := intervalSeconds_runOn options source lister startedAt occasions
    refine ⟨_, hrun, ?_, rfl⟩
    rcases hrun with hchosen | ⟨n, hleast, -, hset⟩
    · omega
    · omega

/-- An object that asks for seven minutes, and holds something else under the other names. -/
def sevenMinutes (namespaces mode : Json.Value) : Dictionary Json.Value :=
  .ofList [("INTERVAL", .string "7m"), ("Namespaces", namespaces), ("NamespaceFilteringMode", mode)]

/-- What stands under the other names changes, and the interval stays. -/
theorem policy_fieldwise_sevenMinutes :
    (Policy.resolve (some (.ofDictionary (sevenMinutes (.array [.string "B"]) .null)))
        (.initial 5)).intervalSeconds = 420 ∧
      (Policy.resolve (some (.ofDictionary (sevenMinutes (.int 3) (.string "exclude"))))
        (.initial 600)).intervalSeconds = 420 := by
  have hsame : Settings.SameUnder Policy.Field.interval.settingName
      (sevenMinutes (.array [.string "B"]) .null) (sevenMinutes (.int 3) (.string "exclude")) := by
    intro spelling hspelling
    have hnamespaces : "Namespaces" ≠ spelling := by
      rintro rfl
      exact absurd hspelling (by decide +kernel)
    have hmode : "NamespaceFilteringMode" ≠ spelling := by
      rintro rfl
      exact absurd hspelling (by decide +kernel)
    simp [sevenMinutes, Dictionary.get?_ofList, List.filter_cons, hnamespaces, hmode]
  have hfirst : (Policy.resolve (some (.ofDictionary (sevenMinutes (.array [.string "B"]) .null)))
      (.initial 5)).intervalSeconds = 420 := by
    decide +kernel
  have ha : (Settings.ofDictionary
      (sevenMinutes (.array [.string "B"]) .null)).isEmpty = false := by decide +kernel
  have hb : (Settings.ofDictionary
      (sevenMinutes (.int 3) (.string "exclude"))).isEmpty = false := by decide +kernel
  obtain ⟨-, -, -, -, -, hfield, -⟩ := policy_fieldwise ha hb (.initial 5) (.initial 600)
    ⟨"c", true, false, 60000000, none⟩ Silence.silence (none : Option Silence) 0 []
    (.start (FixedAnswers.always []))
  exact ⟨hfirst, (hfield .interval _ _ rfl rfl hsame).symm.trans hfirst⟩

end Collector

end PerfRelay
