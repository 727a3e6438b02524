import Restyle.Color.Value
import Restyle.Css.Edit
import Restyle.Theme.Property
import Restyle.Theme.Variables

/-!
# Variables of the two modes

Each mode has a rule of its own that declares its variables: `:root` for light mode and
`.dark` for dark mode, or, where a registry keeps its variables to itself, the elements of
that registry. In version 3 these rules are inside `@layer base`; in version 4 they stand
at top level, and a bare triple of colour components gets its `hsl()` there.
-/

namespace Restyle.Theme

open Restyle.Css (Node Place)
open Restyle.Project (Version)

/-- The selectors of the rules that hold the variables of each mode. -/
structure Selectors where
  light : String
  dark : String
  deriving DecidableEq, Repr

/-- The selectors for all elements, or for those of one registry. -/
def Selectors.ofRegistry : Option String → Selectors
  | some name =>
    let element := "[data-registry=\"" ++ name ++ "\"]"
    ⟨element, element ++ ".dark"⟩
  | none => ⟨":root", ".dark"⟩

/-- The value of a variable in the conventions of a version. -/
def valueFor (version : Version) (value : String) : String :=
  match version with
  | .v3 => value
  | .v4 => Color.wrapTriple value

/-- The declarations of variables in the conventions of a version. -/
def declarationsFor (version : Version) (entries : Entries String) : List (String × String) :=
  entries.map fun (name, value) => (propertyFor version name, valueFor version value)

/-- Properties with their values, one after the other. -/
def assignAll (overwrite : Bool) (declarations : List (String × String))
    (nodes : List Node) : List Node :=
  declarations.foldl (fun nodes (property, value) => Css.assign overwrite property value nodes)
    nodes

/-- Declarations in the rule of a selector. Where there is nothing to declare, no rule is
made. -/
def writeRule (overwrite withBreak : Bool) (selector : String)
    (declarations : List (String × String)) (nodes : List Node) : List Node :=
  if declarations.isEmpty then nodes
  else Css.enter (.rule selector) withBreak (assignAll overwrite declarations) nodes

/-- The variables of both modes in their rules. -/
def writeModes (version : Version) (overwrite withBreak : Bool) (selectors : Selectors)
    (vars : Variables) (nodes : List Node) : List Node :=
  writeRule overwrite withBreak selectors.dark (declarationsFor version vars.dark)
    (writeRule overwrite withBreak selectors.light (declarationsFor version vars.light)
      nodes)

/-- The place of the base layer. -/
def baseLayer : Place := .atRule "layer" "base"

/-- The variables of both modes where a version keeps them. -/
def installModes (version : Version) (overwrite : Bool) (selectors : Selectors)
    (vars : Variables) (nodes : List Node) : List Node :=
  match version with
  | .v3 =>
    if vars.light.isEmpty && vars.dark.isEmpty then nodes
    else Css.enter baseLayer true (writeModes .v3 overwrite false selectors vars) nodes
  | .v4 => writeModes .v4 overwrite true selectors vars nodes

end Restyle.Theme
