import Restyle.Color.Value
import Restyle.Css.Edit
import Restyle.Order.Distinct
import Restyle.Theme.Property
import Restyle.Theme.Variables

/-!
# The inline theme

In version 4, Tailwind makes utilities for what `@theme inline` names. So every variable has
a **mirror** there (`Restyle.Theme.mirrorsOf`): a colour `primary` is mirrored as
`--color-primary: var(--primary)`, any other variable under its own name, and the radius by
a scale of four. Theme entries of a component are written as they are.

Mirrors never replace what is declared; they go behind the last custom property of the
theme.
-/

namespace Restyle.Theme

open Restyle.Css (Node Place)

/-- The place of the inline theme. -/
def inlineTheme : Place := .atRule "theme" "inline"

/-- The scale of radii that mirrors the radius. -/
def radiusScale : List (String × String) :=
  [("--radius-sm", "calc(var(--radius) - 4px)"), ("--radius-md", "calc(var(--radius) - 2px)"),
    ("--radius-lg", "var(--radius)"), ("--radius-xl", "calc(var(--radius) + 4px)")]

/-- The mirrors of one variable, by its name without `--` and a value of it. -/
def mirrorsOf (bare value : String) : List (String × String) :=
  if bare = "radius" then radiusScale
  else if bare = "sidebar-background" then [("--color-sidebar", "var(--sidebar)")]
  else if Color.isTriple value || Color.isColorValue value then
    [("--color-" ++ bare, "var(--" ++ bare ++ ")")]
  else [("--" ++ bare, "var(--" ++ bare ++ ")")]

/-- The names of the variables of both modes, each once. -/
def modeNames (vars : Variables) : List String :=
  firsts (vars.light.names ++ vars.dark.names)

/-- The value that decides how a variable is mirrored: the first one that is not empty. -/
def decidingValue? (vars : Variables) (name : String) : Option String :=
  ((vars.light.find? name).toList ++ (vars.dark.find? name).toList).find?
    (!·.isEmpty)

/-- The mirrors of all variables of both modes. A variable without any value has none. -/
def mirrors (vars : Variables) : List (String × String) :=
  (modeNames vars).flatMap fun name =>
    match decidingValue? vars name with
    | some value => mirrorsOf (bareName name) value
    | none => []

/-- An entry of the theme: where it is declared it takes the value if it may, else it is
inserted. -/
def writeThemeEntry (overwrite : Bool) (nodes : List Node) (entry : String × String) :
    List Node :=
  let property := customProperty entry.1
  if Css.isDeclared property nodes then Css.assign overwrite property entry.2 nodes
  else Css.insertProperty property entry.2 nodes

/-- Properties inserted one after the other. -/
def insertAll (declarations : List (String × String)) (nodes : List Node) : List Node :=
  declarations.foldl (fun nodes (property, value) => Css.insertProperty property value nodes)
    nodes

/-- The theme entries and the mirrors of variables in the inline theme. -/
def updateTheme (overwrite : Bool) (vars : Variables) (nodes : List Node) : List Node :=
  if vars.isEmpty then nodes
  else
    Css.enter inlineTheme true
      (fun theme =>
        insertAll (mirrors vars) (vars.theme.foldl (writeThemeEntry overwrite) theme))
      nodes

end Restyle.Theme
