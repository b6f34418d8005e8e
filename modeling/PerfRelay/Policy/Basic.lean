import PerfRelay.Policy.FilteringMode
import PerfRelay.Policy.Interval
import PerfRelay.Policy.Namespaces
import PerfRelay.Text.Quoted

/-!
# Collection policies

A policy says how often to collect and which namespaces to let through.  It is made from the data
collection settings, each part from its own setting alone; a part whose setting is missing or
invalid has its default.  Without settings the policy in force stays.

Main results:

- Theorem `resolve_resolve`: making a policy again from the same settings changes nothing.
-/

namespace PerfRelay

/-- How often to collect and what to let through. -/
structure Policy where
  intervalSeconds : Nat
  namespaces : NameSet
  filteringMode : FilteringMode
deriving DecidableEq, Inhabited

namespace Policy

/-- The policy before any settings are known: every record, at the given interval. -/
def initial (intervalSeconds : Nat) : Policy := ⟨intervalSeconds, .empty, .off⟩

/-- The name of the setting for the filtering mode. -/
def modeName : String := "namespacefilteringmode"

/-- The mode that a setting stands for. -/
def mode? (value : Json.Value) : Option FilteringMode :=
  value.asString?.bind FilteringMode.ofName?

/-- The mode that the settings ask for. -/
def modeOf (settings : Settings) : FilteringMode :=
  ((settings.get? modeName).bind mode?).getD .off

/-- What is noted about the setting for the filtering mode. -/
def modeNotes (settings : Settings) : List Entry :=
  match settings.get? modeName with
  | none => []
  | some value =>
    match mode? value with
    | some _ => []
    | none => [.warn s!"namespace filtering mode {value.text} is not supported, using default"]

/-- The policy that settings ask for. -/
def ofSettings (settings : Settings) : Policy :=
  ⟨Interval.ofSettings settings, Namespaces.ofSettings settings, modeOf settings⟩

/-- What is noted about a new policy. -/
def summary (policy : Policy) : Entry :=
  .info (s!"using data collection interval {policy.intervalSeconds}s, " ++
    s!"namespaces {Quoted.quoteSet policy.namespaces.toList}, " ++
    s!"filtering mode {policy.filteringMode.name}")

/-- The policy in force after the settings became known; without settings the prior one stays. -/
def resolve (settings : Option Settings) (prior : Policy) : Policy :=
  match settings.filter (!·.isEmpty) with
  | none => prior
  | some settings => ofSettings settings

/-- What is noted when a policy is made. -/
def resolveNotes (settings : Option Settings) : List Entry :=
  match settings.filter (!·.isEmpty) with
  | none => []
  | some settings =>
    Interval.notes settings ++ Namespaces.notes settings ++ modeNotes settings ++
      [(ofSettings settings).summary]

/-- Making a policy again from the same settings changes nothing. -/
theorem resolve_resolve (settings : Option Settings) (prior : Policy) :
    resolve settings (resolve settings prior) = resolve settings prior := by
  unfold resolve
  split <;> rfl

/-- Whether records of a namespace pass. -/
def allows (policy : Policy) (name : String) : Bool :=
  policy.filteringMode.allows policy.namespaces name

end Policy

end PerfRelay
