import PerfRelay.Dictionary
import PerfRelay.Text.LowerCase

/-!
# Filtering by namespace

Records may be kept or dropped by the namespace that they carry.

Main results:

- Theorems `allows_off`, `allows_include_iff` and `allows_exclude_iff`: what each mode lets through.
-/

namespace PerfRelay

/-- How records are filtered by their namespace. -/
inductive FilteringMode where
  /-- All records pass. -/
  | off
  /-- Records of the listed namespaces pass; an empty list stands for all namespaces. -/
  | include
  /-- Records of the listed namespaces are dropped. -/
  | exclude
deriving DecidableEq, Repr, Inhabited

namespace FilteringMode

/-- The name of a mode. -/
def name : FilteringMode → String
  | .off => "off"
  | .include => "include"
  | .exclude => "exclude"

/-- The mode with a name, which may be spelled in either case. -/
def ofName? (text : String) : Option FilteringMode :=
  [off, .include, .exclude].find? (·.name = lowerCase text)

/-- What is said about a text that is no mode. -/
def refusal (text : String) : String :=
  s!"unsupported namespace filtering mode: {text}"

/-- Whether records of a namespace pass. -/
def allows (mode : FilteringMode) (namespaces : NameSet) (name : String) : Bool :=
  match mode with
  | .off => true
  | .include => namespaces.isEmpty || namespaces.contains name
  | .exclude => !namespaces.contains name

theorem allows_off (namespaces : NameSet) (name : String) :
    FilteringMode.off.allows namespaces name = true := rfl

theorem allows_include_iff {namespaces : NameSet} {name : String} :
    FilteringMode.include.allows namespaces name = true ↔
      namespaces.isEmpty = true ∨ namespaces.contains name = true := by
  simp [allows]

theorem allows_exclude_iff {namespaces : NameSet} {name : String} :
    FilteringMode.exclude.allows namespaces name = true ↔ namespaces.contains name = false := by
  simp [allows]

end FilteringMode

end PerfRelay
