import Restyle.Script.Arrows
import Restyle.Script.Classes
import Restyle.Script.Objects

/-!
# Operands

What stands between the operators of an expression: literals, variables, functions,
expressions in parentheses, and all that can be put behind one of these – members, calls,
templates, types.

A call keeps what is called. Parentheses, an exclamation mark or types of its own make
something else of a variable, so only a call of the bare name counts as one of it.
-/

namespace Restyle.Script

/-! ### Behind an operand -/

/-- The arguments of a call in parentheses. -/
def arguments (grammar : Grammar) (context : Context) : Reader (List Node) := do
  expect "("
  commaList context.limit ")" do
    discard <| eat "..."
    value grammar context.nested .assignment

/-- A key in brackets. -/
def bracketKey (grammar : Grammar) (context : Context) : Reader Node := do
  expect "["
  let key ← value grammar context.nested .expression
  expect "]"
  pure key

/-- The name of a member. -/
def memberName : Reader Unit := do
  if (← here).kind == .privateName then step else discard anyName

/-- A template as a node. -/
def templateNode (grammar : Grammar) (context : Context) (isTagged : Bool) : Reader Node := do
  let nodes ← template context.limit isTagged (value grammar context.nested .expression)
  pure (.group nodes)

/-- The words that an expression can start with, names of variables apart. -/
def openingWords : List String :=
  ["this", "super", "null", "true", "false", "function", "class", "new", "import", "delete",
    "typeof", "void"]

/-- The marks that an expression can start with. -/
def openingMarks : List String :=
  ["(", "[", "\x7b", "/", "/=", "+", "-", "~", "!", "++", "--", "<", "@"]

/-- Whether the token can start an expression. -/
def Cursor.startsExpression (cursor : Cursor) : Bool :=
  match cursor.kind with
  | .name _ _ => cursor.isIdentifier || openingWords.any cursor.isWord
  | .string _ => true
  | .number => true
  | .template _ _ => true
  | .privateName => true
  | .mark mark => openingMarks.contains mark
  | _ => false

/-- Whether the types in front of the token belong to an expression: they are called, handed
a template, or nothing that could be compared follows. -/
def Cursor.canFollowTypes (cursor : Cursor) : Bool :=
  cursor.isMark "(" || cursor.isTemplate ||
    (!(["<", ">", "+", "-"].any cursor.isMark) &&
      (cursor.afterLineEnd || !cursor.startsExpression || cursor.isMark "/" ||
        cursor.isWord "as" || cursor.isWord "satisfies"))

/-- The types that an expression is used with, if they are such types. -/
def typesOfValue? (grammar : Grammar) (context : Context) : Reader (Option (List Node)) :=
  attempt do
    modify Cursor.asOpeningAngle
    expect "<"
    check (!(← atMark ">"))
    let types ← commaItems context.limit ">" (typeNode grammar context)
    check (!(← here).asClosingOperator.isMark ">=")
    expect ">"
    check (← here).canFollowTypes
    pure types

/-- The member or the call behind a question mark with a point. -/
def optionalSuffix (grammar : Grammar) (context : Context) (piece : Piece) : Reader Piece := do
  let cursor ← here
  if cursor.isMark "[" then
    let key ← bracketKey grammar context
    pure { Piece.ofNodes [piece.node, key] with isOptional := true }
  else if cursor.isMark "(" || (context.dialect.hasTypes && cursor.startsTypeArguments) then
    let types ← typeArgumentsIfAny grammar context
    let nodes ← arguments grammar context
    pure { node := .call piece.node (types ++ nodes), isOptional := true }
  else
    memberName
    pure { Piece.ofNodes [piece.node] with isOptional := true }

/-- The types, and perhaps a call or a template, behind an operand. -/
def typedSuffix? (grammar : Grammar) (context : Context) (allowsCalls : Bool) (piece : Piece) :
    Reader (Option Piece) := do
  match ← typesOfValue? grammar context with
  | none => pure none
  | some types =>
    if allowsCalls && (← here).isMark "(" then
      let nodes ← arguments grammar context
      return some { node := .call piece.node (types ++ nodes), isOptional := piece.isOptional }
    else return some (.ofNodes (piece.node :: types))

/-- What follows an operand and belongs to it, if anything does. -/
def suffix? (grammar : Grammar) (context : Context) (allowsCalls : Bool) (piece : Piece) :
    Reader (Option Piece) := do
  let cursor ← here
  let hasTypes := context.dialect.hasTypes
  let member (nodes : List Node) : Piece :=
    if piece.isOptional then { Piece.ofNodes nodes with isOptional := true }
    else .place (.group nodes)
  match cursor.kind with
  | .mark "." =>
    step
    memberName
    pure (some (member [piece.node]))
  | .mark "[" =>
    if context.inDecorator then pure none
    else return some (member [piece.node, ← bracketKey grammar context])
  | .mark "?." =>
    check allowsCalls
    step
    return some (← optionalSuffix grammar context piece)
  | .mark "(" =>
    if allowsCalls then
      let nodes ← arguments grammar context
      return some { node := .call piece.node nodes, isOptional := piece.isOptional }
    else pure none
  | .mark "!" =>
    if hasTypes && !cursor.afterLineEnd then
      step
      pure (some { piece with node := .group [piece.node] })
    else pure none
  | .template _ _ =>
    check !piece.isOptional
    return some (.ofNodes [piece.node, ← templateNode grammar context true])
  | _ =>
    if hasTypes && cursor.asOpeningAngle.isMark "<" then
      typedSuffix? grammar context allowsCalls piece
    else pure none

/-- All that follows an operand and belongs to it. -/
def suffixes (grammar : Grammar) (context : Context) (allowsCalls : Bool) (piece : Piece) :
    Reader Piece :=
  iterate (fun piece => do
    match ← suffix? grammar context allowsCalls piece with
    | some more =>
      check !piece.needsTarget
      pure (some more)
    | none => pure none) context.limit piece

/-! ### Operands -/

/-- A call of `import`, or what a module knows of itself. -/
def importExpression (grammar : Grammar) (context : Context) : Reader Piece := do
  expectWord "import"
  let isPhase (cursor : Cursor) : Bool :=
    (cursor.isWord "source" || cursor.isWord "defer") && cursor.next.isMark "("
  if ← eat "." then
    if isPhase (← here) then step
    else
      expectWord "meta"
      return .none
  expect "("
  check (!(← atMark ")"))
  let nodes ← commaList context.limit ")" (value grammar context.nested .assignment)
  check (nodes.length ≤ 2)
  pure (.ofNodes nodes)

/-- What is made by `new`, or the function that was called by it. -/
def newExpression (grammar : Grammar) (context : Context) : Reader Piece := do
  expectWord "new"
  if ← eat "." then
    expectWord "target"
    pure .none
  else
    check (!(← atWord "import"))
    let callee ← value grammar context .constructor
    let nodes ← if ← atMark "(" then arguments grammar context else pure []
    pure (.ofNodes (callee :: nodes))

/-- An operand that starts with a word or a name. -/
def namedOperand (grammar : Grammar) (context : Context) : Reader Piece := do
  let cursor ← here
  let next := cursor.next
  if cursor.startsFunction then functionExpression grammar context
  else if cursor.isWord "class" then classDefinition grammar context.nested false
  else if cursor.isWord "new" then newExpression grammar context
  else if cursor.isWord "import" then importExpression grammar context
  else if cursor.isWord "super" then
    check (next.isMark "(" || next.isMark "." || next.isMark "[")
    step
    pure .none
  else if ["this", "null", "true", "false"].any cursor.isWord then
    step
    pure .none
  else return .place (.identifier (← identifier context))

/-- An expression in parentheses. -/
def parenthesized (grammar : Grammar) (context : Context) : Reader Piece := do
  expect "("
  let piece ← grammar context.nested .expression
  check !piece.needsTarget
  expect ")"
  let node := Node.group [piece.node]
  pure (if piece.isPlace then .place node else { node })

/-- A regular expression. -/
def pattern : Reader Piece := do
  match (← here).asPattern? with
  | some cursor =>
    set cursor
    step
    pure .none
  | none => failure

/-- An operand with nothing behind it. -/
def operand (grammar : Grammar) (context : Context) : Reader Piece := do
  let cursor ← here
  match cursor.kind with
  | .name _ _ => namedOperand grammar context
  | .number => step; pure .none
  | .string _ => return { node := ← stringLiteral }
  | .template _ _ => return { node := ← templateNode grammar context false }
  | .mark "(" => parenthesized grammar context
  | .mark "[" => listLiteral grammar context
  | .mark "\x7b" => objectLiteral grammar context
  | .mark "/" => pattern
  | .mark "/=" => pattern
  | .mark "@" =>
    let decorators ← decorators grammar context
    let piece ← classDefinition grammar context.nested false
    pure (.ofNodes (decorators ++ [piece.node]))
  | .mark "<" =>
    check context.dialect.hasElements
    let piece ← grammar context.nested .element
    step
    pure piece
  | _ => failure

/-- What can be called or assigned to. -/
def leftHandSide (grammar : Grammar) (context : Context) : Reader Piece := do
  suffixes grammar context true (← operand grammar context)

/-- What can be called by `new`. -/
def constructor (grammar : Grammar) (context : Context) : Reader Piece := do
  suffixes grammar context false (← operand grammar context)

end Restyle.Script
