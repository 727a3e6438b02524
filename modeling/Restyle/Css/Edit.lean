import Restyle.Css.Tree
import Restyle.Text.Blank
import Restyle.Text.Search

/-!
# Editing style sheets

The edits that installing a component is made of, each on the list of nodes of one
container. They only ever add nodes and replace values: a place is looked for and made at
the end where it is missing (`Restyle.Css.reach`), nodes are added inside the first node at
a place (`Restyle.Css.enter`), a property takes a value where it was first declared
(`Restyle.Css.declare`), an import or a plugin joins the others of its kind.

Where a new node is to be set off by a blank line, a break marker goes in front of it.
-/

namespace Restyle.Css

/-! ### Adding nodes -/

/-- A node at the end, set off by a break marker where one is asked for and there is
something to be set off from. -/
def push (withBreak : Bool) (node : Node) (nodes : List Node) : List Node :=
  if withBreak && !nodes.isEmpty then nodes ++ [breakMarker, node] else nodes ++ [node]

/-- A node whose empty space in front is forgotten, so that it starts a line of its own. -/
def Node.loosen (node : Node) : Node :=
  if node.layout.before = some "" then node.withLayout { node.layout with before := none }
  else node

/-- New nodes in front of number `index`, which no longer sticks to what was in front of
it. -/
def insertAt (index : Nat) (new nodes : List Node) : List Node :=
  if new.isEmpty then nodes
  else nodes.take index ++ new ++
    (match nodes.drop index with
      | [] => []
      | next :: rest => next.loosen :: rest)

/-- The number of the last node of a kind. -/
def lastIndex? (p : Node → Bool) (nodes : List Node) : Option Nat :=
  (nodes.reverse.findIdx? p).map fun fromEnd => nodes.length - 1 - fromEnd

/-- The number of the last at-rule of a name. -/
def lastAtRule? (name : String) (nodes : List Node) : Option Nat :=
  lastIndex? (Node.isAtRuleNamed name) nodes

/-! ### Places -/

/-- A place that has to be there: made at the end where nothing is at it. -/
def reach (place : Place) (withBreak : Bool) (nodes : List Node) : List Node :=
  if nodes.any place.isAt then nodes else push withBreak place.fresh nodes

/-- Other nodes inside a node. An at-rule without a body gets one when there is something
to hold. -/
def Node.fill (f : List Node → List Node) (node : Node) : Node :=
  match node with
  | .statement _ _ _ => if (f []).isEmpty then node else node.mapChildren f
  | _ => node.mapChildren f

/-- Other nodes inside the first node at a place. -/
def inside (place : Place) (f : List Node → List Node) : List Node → List Node
  | [] => []
  | node :: rest =>
    if place.isAt node then node.fill f :: rest else node :: inside place f rest

/-- Other nodes inside the first node at a place, which is made where it is missing. -/
def enter (place : Place) (withBreak : Bool) (f : List Node → List Node)
    (nodes : List Node) : List Node :=
  inside place f (reach place withBreak nodes)

/-! ### Declarations -/

/-- A property with a value: in place of the value of its first declaration, or declared at
the end. -/
def declare (property value : String) : List Node → List Node
  | [] => [.declaration property value {}]
  | node :: rest =>
    match node with
    | .declaration other old layout =>
      if other = property then .declaration other value layout :: rest
      else .declaration other old layout :: declare property value rest
    | node => node :: declare property value rest

/-- A property with a value, which only with `overwrite` replaces one that is there. -/
def assign (overwrite : Bool) (property value : String) (nodes : List Node) : List Node :=
  if overwrite || !isDeclared property nodes then declare property value nodes else nodes

/-- Whether a node declares a custom property. -/
def Node.isCustomProperty (node : Node) : Bool :=
  match node.declaration? with
  | some (property, _) => Text.stringStartsWith "--" property
  | none => false

/-- A property behind the last custom property, unless it is declared. -/
def insertProperty (property value : String) (nodes : List Node) : List Node :=
  if isDeclared property nodes then nodes
  else
    let index := match lastIndex? Node.isCustomProperty nodes with
      | some last => last + 1
      | none => nodes.length
    nodes.take index ++ .declaration property value {} :: nodes.drop index

/-! ### Statements -/

/-- An at-rule without a body, unless an at-rule of that name and with these parameters is
there. -/
def ensureStatement (name params : String) (withBreak : Bool) (nodes : List Node) :
    List Node :=
  if nodes.any (Place.atRule name params).isAt then nodes
  else push withBreak (.statement name params {}) nodes

/-- An import behind the last import, or in front of everything. -/
def ensureImport (params : String) (nodes : List Node) : List Node :=
  if nodes.any (Place.atRule "import" params).isAt then nodes
  else
    let index := match lastAtRule? "import" nodes with
      | some last => last + 1
      | none => 0
    insertAt index [.statement "import" params {}] nodes

/-- Whether a character is a quote. -/
def isQuote (c : Char) : Bool := c == '"' || c == '\''

/-- The name of a plugin in double quotes: a bare name and a name in quotes of either kind
are the same plugin. -/
def quotedPlugin (params : String) : String :=
  let bare := Text.dropEndWhile isQuote ((Text.trim params.toList).dropWhile isQuote)
  String.ofList ('"' :: (bare ++ ['"']))

/-- Whether a node loads a plugin. -/
def Node.loadsPlugin (quoted : String) (node : Node) : Bool :=
  match node.atRule? with
  | some (name, params) => name == "plugin" && quotedPlugin params == quoted
  | none => false

/-- A plugin beside the other plugins, else behind the imports, else in front of
everything. A name in quotes keeps its quotes. -/
def ensurePlugin (params : String) (nodes : List Node) : List Node :=
  if nodes.any (Node.loadsPlugin (quotedPlugin params)) then nodes
  else
    let trimmed := Text.trim params.toList
    let written := match trimmed with
      | c :: _ => if isQuote c then String.ofList trimmed else quotedPlugin params
      | [] => quotedPlugin params
    let plugin : Node := .statement "plugin" written {}
    match lastAtRule? "plugin" nodes with
    | some last => insertAt (last + 1) [plugin] nodes
    | none => match lastAtRule? "import" nodes with
      | some last => insertAt (last + 1) [breakMarker, plugin] nodes
      | none => insertAt 0 [plugin, breakMarker] nodes

end Restyle.Css
