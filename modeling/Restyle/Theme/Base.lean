import Restyle.Css.Edit
import Restyle.Theme.Modes

/-!
# The base layer and the dark variant

A project that uses CSS variables needs two rules in `@layer base` that apply them to every
element and to the body. A layer that has both is complete; where none is, a new one is
added at the end (`Restyle.Theme.ensureBase`).

In version 4, the variant `dark` has to be declared (`Restyle.Theme.ensureDarkVariant`).
-/

namespace Restyle.Theme

open Restyle.Css (Node Place)
open Restyle.Project (Version)

/-- The rules of the base layer: a selector, and the utilities that it applies. -/
def baseRules : Version → List (String × String)
  | .v3 => [("*", "border-border"), ("body", "bg-background text-foreground")]
  | .v4 => [("*", "border-border outline-ring/50"), ("body", "bg-background text-foreground")]

/-- Whether the first rule of a selector applies some utilities. -/
def applies (nodes : List Node) (rule : String × String) : Bool :=
  match Css.find? (.rule rule.1) nodes with
  | some found => found.children.any (Place.atRule "apply" rule.2).isAt
  | none => false

/-- Whether a node is a base layer with all its rules. -/
def isCompleteBase (version : Version) (node : Node) : Bool :=
  baseLayer.isAt node && (baseRules version).all (applies node.children)

/-- A base layer with all its rules. -/
def newBase (version : Version) : Node :=
  .block "layer" "base"
    ((baseRules version).map fun (selector, utilities) =>
      .rule selector [.statement "apply" utilities {}] {}) {}

/-- A complete base layer somewhere. -/
def ensureBase (version : Version) (nodes : List Node) : List Node :=
  if nodes.any (isCompleteBase version) then nodes else Css.push true (newBase version) nodes

/-- The parameters that declare the variant `dark`. -/
def darkVariant : String := "dark (&:is(.dark *))"

/-- A declaration of the variant `dark`, behind the first node. A style sheet with variants
of its own is left alone. -/
def ensureDarkVariant (nodes : List Node) : List Node :=
  if nodes.any (Node.isAtRuleNamed "custom-variant") then nodes
  else
    let variant : Node := .statement "custom-variant" darkVariant {}
    match nodes with
    | [] => [variant]
    | _ => Css.insertAt 1 [Css.breakMarker, variant] nodes

end Restyle.Theme
