import Restyle.Class.BaseColor
import Restyle.Json.Decode
import Restyle.Project.Item
import Restyle.Project.Settings

/-!
# Documents of a project

How settings, palettes and registry items are written in JSON. Members that are not known
are ignored; a known member has to be of its kind. A missing member takes its default, and
`null` stands for a missing member only where there need not be one.

A rule description and a palette are read as whole values, so every number in them has to
be in range; what a document holds elsewhere is only skipped.
-/

namespace Restyle.Project

open Restyle.Json (Value member? nullable texts?)

/-- A version is written by its name, alone or as the only member, with nothing under it,
of an object. -/
def Version.ofJson? : Value → Option Version
  | .string text => ofName? text
  | .object [(text, .null)] => ofName? text
  | _ => none
where
  /-- The version of a name. -/
  ofName? (text : String) : Option Version :=
    if text = "v3" then some .v3 else if text = "v4" then some .v4 else none

/-- The settings of a project document. -/
def Settings.ofJson? (value : Value) : Option Settings := do
  let document ← value.members?
  let version ← member? document "tailwindVersion" Version.v3 Version.ofJson?
  let tailwind ← member? document "tailwind" [] Value.members?
  let cssVariables ← member? tailwind "cssVariables" true Value.bool?
  let rtl ← member? tailwind "rtl" false Value.bool?
  let utilityPrefix ← member? tailwind "prefix" none (nullable Value.text?)
  let baseColor ← member? tailwind "baseColor" none (nullable Value.text?)
  let css ← member? tailwind "css" none (nullable Value.text?)
  pure { cssVariables, rtl, utilityPrefix, baseColor, css, version }

/-- The shades of a palette document, which may be wrapped as the inline colours of a
longer one. -/
def paletteOfJson? (value : Value) : Option Class.Palette := do
  if !value.isRepresentable then none
  let members ← value.settled.members?
  let shades ← match Entries.find? "inlineColors" members with
    | some inline => inline.members?
    | none => some members
  let light ← member? shades "light" [] texts?
  let dark ← member? shades "dark" [] texts?
  pure { light, dark }

/-- The variables to install. -/
def variablesOfJson? (value : Value) : Option Theme.Variables := do
  let members ← value.members?
  let theme ← member? members "theme" [] texts?
  let light ← member? members "light" [] texts?
  let dark ← member? members "dark" [] texts?
  pure { theme, light, dark }

/-- The parts of an older configuration that carry over. -/
def legacyOfJson? (value : Value) : Option Theme.Legacy := do
  let members ← value.members?
  let plugins ← member? members "plugins" [] (Json.items? Value.text?)
  let theme ← member? members "theme" [] Value.members?
  let extension ← member? theme "extend" [] Value.members?
  let keyframes ← member? extension "keyframes" [] (Json.entries? (Json.entries? texts?))
  let animation ← member? extension "animation" [] texts?
  pure { plugins, keyframes, animation }

/-- A description of rules: an object, each key once. -/
def rulesOfJson? (value : Value) : Option (Entries Value) :=
  if value.isRepresentable then value.settled.members? else none

/-- The styling of a registry item document. -/
def Item.ofJson? (value : Value) : Option Item := do
  let document ← value.members?
  let name ← member? document "name" none (nullable Value.text?)
  let vars ← member? document "cssVars" none (nullable variablesOfJson?)
  let rules ← member? document "css" none (nullable rulesOfJson?)
  let tailwind ← member? document "tailwind" none (nullable Value.members?)
  let legacy ← member? (tailwind.getD []) "config" none (nullable legacyOfJson?)
  pure { name, vars, rules, legacy }

/-- The palette of a base colour's name. -/
def basePalette? (name : String) : Option Class.Palette :=
  (Class.BaseColor.ofName? name).map (·.palette)

end Restyle.Project
