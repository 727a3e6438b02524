import Restyle.Order.Entries

/-!
# Variables to install

What a component asks of a style sheet, apart from its own rules: custom properties for
light and dark mode, entries of the theme, and the parts of an older JavaScript
configuration that can be carried over.
-/

namespace Restyle.Theme

/-- Custom properties by mode. The names stand with or without their leading `--`. -/
structure Variables where
  /-- Written as they are into the theme. -/
  theme : Entries String := []
  light : Entries String := []
  dark : Entries String := []
  deriving DecidableEq, Repr

/-- Whether there is nothing to install. -/
def Variables.isEmpty (vars : Variables) : Bool :=
  vars.theme.isEmpty && vars.light.isEmpty && vars.dark.isEmpty

/-- What carries over from the configuration of an older version. -/
structure Legacy where
  /-- Package names, bare or in a `require` call. -/
  plugins : List String := []
  /-- The steps of each keyframe animation, and the declarations of each step. -/
  keyframes : Entries (Entries (Entries String)) := []
  /-- The shorthand value of each animation. -/
  animation : Entries String := []
  deriving DecidableEq, Repr

/-- Whether nothing carries over. -/
def Legacy.isEmpty (legacy : Legacy) : Bool :=
  legacy.plugins.isEmpty && legacy.keyframes.isEmpty && legacy.animation.isEmpty

/-- How variables are installed. -/
structure Options where
  /-- The registry whose elements alone receive the variables. -/
  registry : Option String := none
  /-- Whether a declaration that is there takes the new value. -/
  overwrite : Bool := true
  /-- Whether the colours and fonts of a freshly scaffolded application are removed. -/
  cleanup : Bool := false
  /-- The older configuration to carry over. -/
  legacy : Option Legacy := none
  deriving DecidableEq, Repr

end Restyle.Theme
