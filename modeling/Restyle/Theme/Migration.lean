import Restyle.Css.Edit
import Restyle.Theme.Inline

/-!
# Carrying over an older configuration

Plugins, animations and keyframes of a JavaScript configuration become part of the style
sheet. A plugin is written in the quotes that the style sheet starts with, animations are
custom properties of the inline theme, and keyframes are at-rules in it. What is there is
never touched.
-/

namespace Restyle.Theme

open Restyle.Css (Node Place)

/-- The text in which the quotes of a style sheet are looked for: that of its first node. -/
def leadingText : List Node → String
  | .rule selector _ _ :: _ => selector
  | .block _ params _ _ :: _ => params
  | .statement _ params _ :: _ => params
  | .declaration _ value _ :: _ => value
  | .comment text _ :: _ => text
  | [] => ""

/-- The quotes in which a style sheet writes names. -/
def quoteOf (nodes : List Node) : String :=
  if (leadingText nodes).toList.contains '\'' then "'" else "\""

/-- A text without the first of some pieces that is in front of it, if any is. -/
def dropFirst (pieces : List String) (text : List Char) : List Char :=
  (pieces.findSome? fun piece => Text.strip? piece.toList text).getD text

/-- A text without the first of some pieces that is at its end, if any is. -/
def dropLast (pieces : List String) (text : List Char) : List Char :=
  (pieces.findSome? fun piece => Text.stripEnd? piece.toList text).getD text

/-- The package of a plugin: what is inside a `require` call, whose two halves are dropped
wherever they stand. -/
def packageName (plugin : String) : String :=
  String.ofList (dropLast ["\")", "')"]
    (dropFirst ["require(\"", "require('"] plugin.toList))

/-- Plugins loaded by the style sheet. -/
def migratePlugins (plugins : List String) (nodes : List Node) : List Node :=
  let quote := quoteOf nodes
  plugins.foldl (fun nodes plugin => Css.ensurePlugin (quote ++ packageName plugin ++ quote) nodes)
    nodes

/-- Animations in the inline theme. -/
def migrateAnimations (animation : Entries String) (nodes : List Node) : List Node :=
  if animation.isEmpty then nodes
  else
    Css.enter inlineTheme true
      (insertAll (animation.map fun (name, value) => ("--animate-" ++ name, value))) nodes

/-- The node of a keyframe animation. -/
def keyframesNode (name : String) (steps : Entries (Entries String)) : Node :=
  let step (nodes : List Node) (entry : String × Entries String) : List Node :=
    Css.enter (.rule entry.1) false
      (fun rule =>
        entry.2.foldl (fun rule (property, value) => Css.declare property value rule) rule)
      nodes
  .block "keyframes" name (steps.foldl step []) {}

/-- Keyframe animations in the inline theme, except those that are there. -/
def migrateKeyframes (keyframes : Entries (Entries (Entries String))) (nodes : List Node) :
    List Node :=
  if keyframes.isEmpty then nodes
  else
    Css.enter inlineTheme true
      (fun theme => keyframes.foldl
        (fun theme (name, steps) =>
          if theme.any (Place.atRule "keyframes" name).isAt then theme
          else Css.push true (keyframesNode name steps) theme)
        theme)
      nodes

/-- An older configuration carried over. -/
def migrate (legacy : Legacy) (nodes : List Node) : List Node :=
  migrateKeyframes legacy.keyframes
    (migrateAnimations legacy.animation (migratePlugins legacy.plugins nodes))

end Restyle.Theme
