import Restyle.Script.Types

/-!
# Functions

Functions from their parameters on, as declarations, expressions and methods. A function
without a body only declares what is defined elsewhere, which takes a language with types.
-/

namespace Restyle.Script

/-- Statements in braces. -/
def block (grammar : Grammar) (context : Context) : Reader (List Node) := do
  expect "\x7b"
  let pieces ← many context.limit (atMark "\x7d") (grammar context (.statement false))
  expect "\x7d"
  pure (pieces.map (·.node))

/-- Parameters, result type and body of a function, in its own context: the nodes, and the
number of parameters. -/
def functionRest (grammar : Grammar) (context : Context) (needsBody : Bool) :
    Reader (List Node × Nat) := do
  let (nodes, n) ← signature grammar context
  if ← atMark "\x7b" then
    check (needsBody || !context.isAmbient)
    return (nodes ++ (← block grammar context), n)
  else
    check (context.dialect.hasTypes && !needsBody)
    endOfStatement
    pure (nodes, n)

/-- The words and the mark in front of the name of a function: whether it is asynchronous,
and whether it is a generator. -/
def functionHead : Reader (Bool × Bool) := do
  let isAsync ← eatWord "async"
  expectWord "function"
  return (isAsync, ← eat "*")

/-- Whether the token starts a function. -/
def Cursor.startsFunction (cursor : Cursor) : Bool :=
  cursor.isWord "function" ||
    (cursor.isWord "async" && cursor.next.isWord "function" && !cursor.next.afterLineEnd)

/-- A function as a declaration, whose name may be missing where `isDefault`. -/
def functionDeclaration (grammar : Grammar) (context : Context) (isDefault : Bool) :
    Reader Piece := do
  let (isAsync, isGenerator) ← functionHead
  let names ← if isDefault && !(← here).isIdentifierIn context then pure []
    else (do return [← identifier context])
  let (nodes, _) ← functionRest grammar (context.function isAsync isGenerator) false
  pure { node := .group nodes, names }

/-- A function as an expression. -/
def functionExpression (grammar : Grammar) (context : Context) : Reader Piece := do
  let (isAsync, isGenerator) ← functionHead
  let context := context.function isAsync isGenerator
  if (← here).isName then discard <| identifier context
  let (nodes, _) ← functionRest grammar context true
  pure (.ofNodes nodes)

/-! ### Methods -/

/-- What the words in front of a method make of it. -/
structure Manner where
  isAsync : Bool := false
  isGenerator : Bool := false
  /-- It reads a property. -/
  isGetter : Bool := false
  /-- It writes a property. -/
  isSetter : Bool := false

/-- Whether it is a plain method. -/
def Manner.isPlain (manner : Manner) : Bool :=
  !(manner.isAsync || manner.isGenerator || manner.isGetter || manner.isSetter)

/-- The words and the mark in front of the key of a method. -/
def manner : Reader Manner := do
  let cursor ← here
  let next := cursor.next
  if cursor.isWord "async" && !next.afterLineEnd && (next.isKeyStart || next.isMark "*") then
    step
    return { isAsync := true, isGenerator := ← eat "*" }
  else if cursor.isWord "get" && next.isKeyStart then
    step
    pure { isGetter := true }
  else if cursor.isWord "set" && next.isKeyStart then
    step
    pure { isSetter := true }
  else return { isGenerator := ← eat "*" }

/-- A method behind its key. What reads a property has no parameter, and what writes one has
one. -/
def method (grammar : Grammar) (context : Context) (manner : Manner) (needsBody : Bool) :
    Reader (List Node) := do
  let context := context.function manner.isAsync manner.isGenerator
  let (nodes, n) ← functionRest grammar context needsBody
  check (!manner.isGetter || n == 0)
  check (!manner.isSetter || n == 1)
  pure nodes

end Restyle.Script
