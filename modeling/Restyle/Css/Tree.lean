/-!
# Style sheet trees

A style sheet is a list of nodes: rules and at-rules, which may hold nodes of their own,
declarations and comments. A tree is edited far more often than it is read from scratch, and
an edit must leave everything it does not touch exactly as its author laid it out. So each
node carries a `Restyle.Css.Layout`: the white space and the marks around its parts, as they
were read. A slot that is `none` was never read; there the printer has a default.

An at-rule with a body and one without are two constructors, `Restyle.Css.Node.block` and
`Restyle.Css.Node.statement`: `@layer base { … }` and `@import "x";`. What can be looked for
in a list of nodes and made where it is missing is a `Restyle.Css.Place`.
-/

namespace Restyle.Css

/-- The layout around the parts of a node. -/
structure Layout where
  /-- White space and stray semicolons in front of the node. -/
  before : Option String := none
  /-- What stands between a selector or the parameters and `{` or `;`, and between a property
  and its value, the colon included. -/
  between : Option String := none
  /-- What stands in front of the `}` of a block or the `;` of a declaration. -/
  after : Option String := none
  /-- White space between the name of an at-rule and its parameters. -/
  afterName : Option String := none
  /-- Whether the last child of a block ends with a semicolon. -/
  semicolon : Option Bool := none
  deriving DecidableEq, Repr

/-- A node of a style sheet. -/
inductive Node where
  /-- Nodes under a selector. -/
  | rule (selector : String) (nodes : List Node) (layout : Layout)
  /-- An at-rule with a body. The name is without its `@`. -/
  | block (name params : String) (nodes : List Node) (layout : Layout)
  /-- An at-rule without a body. -/
  | statement (name params : String) (layout : Layout)
  | declaration (property value : String) (layout : Layout)
  /-- A comment, by the text between its marks. -/
  | comment (text : String) (layout : Layout)
  deriving Repr

mutual

/-- Nodes are compared with their layout and with the nodes inside. -/
def Node.decEq : (a b : Node) → Decidable (a = b)
  | .rule selector nodes layout, other =>
    match other with
    | .rule selector' nodes' layout' =>
      match Node.decEqList nodes nodes' with
      | isTrue h => decidable_of_iff (selector = selector' ∧ layout = layout') (by simp [h])
      | isFalse h => isFalse (by simp [h])
    | .block .. | .statement .. | .declaration .. | .comment .. => isFalse nofun
  | .block name params nodes layout, other =>
    match other with
    | .block name' params' nodes' layout' =>
      match Node.decEqList nodes nodes' with
      | isTrue h =>
        decidable_of_iff (name = name' ∧ params = params' ∧ layout = layout') (by simp [h])
      | isFalse h => isFalse (by simp [h])
    | .rule .. | .statement .. | .declaration .. | .comment .. => isFalse nofun
  | .statement name params layout, other =>
    match other with
    | .statement name' params' layout' =>
      decidable_of_iff (name = name' ∧ params = params' ∧ layout = layout') (by simp)
    | .rule .. | .block .. | .declaration .. | .comment .. => isFalse nofun
  | .declaration property value layout, other =>
    match other with
    | .declaration property' value' layout' =>
      decidable_of_iff (property = property' ∧ value = value' ∧ layout = layout') (by simp)
    | .rule .. | .block .. | .statement .. | .comment .. => isFalse nofun
  | .comment text layout, other =>
    match other with
    | .comment text' layout' => decidable_of_iff (text = text' ∧ layout = layout') (by simp)
    | .rule .. | .block .. | .statement .. | .declaration .. => isFalse nofun

/-- And so are lists of them. -/
def Node.decEqList : (as bs : List Node) → Decidable (as = bs)
  | [], [] => isTrue rfl
  | [], _ :: _ | _ :: _, [] => isFalse nofun
  | a :: as, b :: bs =>
    match Node.decEq a b with
    | isFalse h => isFalse (by simp [h])
    | isTrue h =>
      match Node.decEqList as bs with
      | isFalse h' => isFalse (by simp [h'])
      | isTrue h' => isTrue (by rw [h, h'])

end

instance : DecidableEq Node := Node.decEq

/-- A style sheet. -/
structure Sheet where
  nodes : List Node := []
  /-- What stands behind the last node. -/
  after : String := ""
  /-- Whether the last statement ends with a semicolon. -/
  semicolon : Bool := true
  deriving DecidableEq, Repr

/-! ### Break markers -/

/-- The text of the comments that stand where a blank line is wanted. They are taken out of
the printed text, and the white space around them is the blank line. -/
def breakMarkerText : String := " ---break--- "

/-- A new break marker. -/
def breakMarker : Node := .comment breakMarkerText {}

namespace Node

/-- The layout of a node. -/
def layout : Node → Layout
  | rule _ _ layout => layout
  | block _ _ _ layout => layout
  | statement _ _ layout => layout
  | declaration _ _ layout => layout
  | comment _ layout => layout

/-- The node in another layout. -/
def withLayout (layout : Layout) : Node → Node
  | rule selector nodes _ => rule selector nodes layout
  | block name params nodes _ => block name params nodes layout
  | statement name params _ => statement name params layout
  | declaration property value _ => declaration property value layout
  | comment text _ => comment text layout

/-- The nodes inside a node. -/
def children : Node → List Node
  | rule _ nodes _ => nodes
  | block _ _ nodes _ => nodes
  | _ => []

/-- The name and the parameters of an at-rule. -/
def atRule? : Node → Option (String × String)
  | block name params _ _ => some (name, params)
  | statement name params _ => some (name, params)
  | _ => none

/-- The selector of a rule. -/
def selector? : Node → Option String
  | rule selector _ _ => some selector
  | _ => none

/-- The property and the value of a declaration. -/
def declaration? : Node → Option (String × String)
  | declaration property value _ => some (property, value)
  | _ => none

/-- Whether a node is an at-rule of a name. -/
def isAtRuleNamed (name : String) (node : Node) : Bool :=
  match node.atRule? with
  | some (other, _) => other == name
  | none => false

/-- Whether a node declares a property. -/
def declares (property : String) (node : Node) : Bool :=
  match node.declaration? with
  | some (other, _) => other == property
  | none => false

/-- Whether a node can hold nodes: a rule or an at-rule. -/
def isContainer : Node → Bool
  | rule .. => true
  | block .. => true
  | statement .. => true
  | _ => false

/-- The node with other nodes inside; an at-rule without a body gets one. -/
def mapChildren (f : List Node → List Node) : Node → Node
  | rule selector nodes layout => rule selector (f nodes) layout
  | block name params nodes layout => block name params (f nodes) layout
  | statement name params layout => block name params (f []) layout
  | node => node

end Node

/-! ### Places -/

/-- What is looked for in a list of nodes, and made where it is missing. -/
inductive Place where
  | rule (selector : String)
  | atRule (name params : String)
  deriving DecidableEq, Repr

namespace Place

/-- Whether a node is what is looked for. -/
def isAt (place : Place) (node : Node) : Bool :=
  match place with
  | rule selector => node.selector? == some selector
  | atRule name params => node.atRule? == some (name, params)

/-- The node to make where nothing is found: an empty rule, or an at-rule with an empty
body. -/
def fresh : Place → Node
  | rule selector => .rule selector [] {}
  | atRule name params => .block name params [] {}

end Place

/-- The first node at a place. -/
def find? (place : Place) (nodes : List Node) : Option Node :=
  nodes.find? place.isAt

/-- The value of the first declaration of a property. -/
def valueOf? (property : String) (nodes : List Node) : Option String :=
  nodes.findSome? fun node => match node.declaration? with
    | some (other, value) => if other = property then some value else none
    | none => none

/-- Whether a property is declared. -/
def isDeclared (property : String) (nodes : List Node) : Bool :=
  nodes.any (·.declares property)

end Restyle.Css
