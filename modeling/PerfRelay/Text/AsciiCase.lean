/-!
# Letter case in ASCII

Switches and names with a fixed spelling are compared without regard to the case of the letters A to
Z; every other character stands for itself.

Main results:

- Theorem `eqIgnoringCase_iff`: the comparison is equality of the folded texts, so it is an
  equivalence.
-/

namespace PerfRelay

/-- The text with the letters A to Z made small. -/
def foldAsciiCase (text : String) : List Char :=
  text.toList.map Char.toLower

/-- Whether two texts agree up to the case of the letters A to Z. -/
def eqIgnoringCase (a b : String) : Bool :=
  foldAsciiCase a == foldAsciiCase b

theorem eqIgnoringCase_iff {a b : String} :
    eqIgnoringCase a b = true ↔ foldAsciiCase a = foldAsciiCase b := by
  simp [eqIgnoringCase]

end PerfRelay
