import Restyle.Json.Value
import Restyle.Theme.Variables

/-!
# Registry items

A registry offers components, and a component brings its styling along: variables, rules
of its own, and perhaps parts of an older configuration. Each of the three may be missing.
-/

namespace Restyle.Project

/-- The styling of a registry item. -/
structure Item where
  name : Option String := none
  vars : Option Theme.Variables := none
  /-- The rules to merge, by selector. -/
  rules : Option (Entries Json.Value) := none
  legacy : Option Theme.Legacy := none

end Restyle.Project
