import Restyle.Css.Tree
import Restyle.Text.Search

/-!
# Removing the scaffold

A freshly scaffolded application comes with colours and fonts of its own. They would win
over those that are installed, so they can be removed (`Restyle.Theme.removeScaffold`): the
colours and the font of `body`, and the variables `--background` and `--foreground` of
`:root`, at top level and under a preference for dark colours.

Only what holds a value of the scaffold is removed, and only in the first container of its
kind. A container that is left without nodes is removed as well.
-/

namespace Restyle.Theme

open Restyle.Css (Node)

/-- A list without its first element of a kind. -/
def removeFirst {α : Type} (p : α → Bool) : List α → List α
  | [] => []
  | x :: xs => if p x then xs else x :: removeFirst p xs

/-- The first node of a kind with other nodes inside, or without it if none are left. -/
def reviseFirst (p : Node → Bool) (f : List Node → List Node) : List Node → List Node
  | [] => []
  | node :: rest =>
    if p node then
      if (f node.children).isEmpty then rest else node.mapChildren f :: rest
    else node :: reviseFirst p f rest

/-- Whether a node is the rule of a selector. -/
def isRuleOf (selector : String) (node : Node) : Bool :=
  node.selector? == some selector

/-- Whether a node is a declaration of the scaffold's text colour. -/
def isScaffoldColor (node : Node) : Bool :=
  node.declaration? == some ("color", "rgb(var(--foreground-rgb))") ||
    node.declaration? == some ("color", "var(--foreground)")

/-- Whether a node is a declaration of the scaffold's background. -/
def isScaffoldBackground (node : Node) : Bool :=
  match node.declaration? with
  | some (property, value) =>
    property == "background" &&
      (Text.stringStartsWith "linear-gradient" value || value == "var(--background)")
  | none => false

/-- Whether a node is a declaration of the scaffold's font. -/
def isScaffoldFont (node : Node) : Bool :=
  node.declaration? == some ("font-family", "Arial, Helvetica, sans-serif")

/-- The nodes of a body rule without those of the scaffold: one of each kind at most. -/
def cleanBody (nodes : List Node) : List Node :=
  removeFirst isScaffoldFont (removeFirst isScaffoldBackground (removeFirst isScaffoldColor nodes))

/-- Whether a node declares a variable of the scaffold. -/
def isScaffoldVariable (node : Node) : Bool :=
  node.declares "--background" || node.declares "--foreground"

/-- Nodes without the variables of the scaffold in the first `:root`. -/
def removeVariables (nodes : List Node) : List Node :=
  reviseFirst (isRuleOf ":root") (fun root => root.filter (!isScaffoldVariable ·)) nodes

/-- Whether a node is an at-rule for a preference for dark colours. -/
def isDarkScheme (node : Node) : Bool :=
  match node.atRule? with
  | some (_, params) => params == "(prefers-color-scheme: dark)"
  | none => false

/-- The nodes of a style sheet without the scaffold. -/
def removeScaffold (nodes : List Node) : List Node :=
  reviseFirst isDarkScheme removeVariables
    (removeVariables (reviseFirst (isRuleOf "body") cleanBody nodes))

end Restyle.Theme
