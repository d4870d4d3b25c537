import PyBundle.Text.Lowercase

/-!
# Pinned distributions
-/

namespace PyBundle

/-- **A distribution at the version that is installed.** -/
structure Pin where
  name : String
  version : String
  deriving DecidableEq, Repr, Inhabited

namespace Pin

/-- **The line that demands a distribution at its version.** -/
def requirement (p : Pin) : String := s!"{p.name}=={p.version}"

/-- How a pinned distribution is shown to the user. -/
def display (p : Pin) : String := s!"ExternalModule({p.requirement})"

/-- Whether a name comes before another or with it, where case does not count. -/
def precedes (p q : Pin) : Bool := !decide (Text.lower q.name < Text.lower p.name)

/-- **Pinned distributions in the order of their names.** Those whose names differ in case alone stay in
the order in which they are given. -/
def sorted (pins : List Pin) : List Pin := pins.mergeSort precedes

end Pin

end PyBundle
