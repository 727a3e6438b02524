import Restyle.Script.Names

/-!
# Patterns and parameters

What a declaration or a function binds: a name, or a pattern of names with values to fall
back on. In a list of elements a rest comes last, and nothing stands behind it.
-/

namespace Restyle.Script

/-- A type behind a colon, where types are part of the language. -/
def annotation (grammar : Grammar) (context : Context) : Reader (List Node) := do
  if ← eatWhere context.dialect.hasTypes ":" then
    return [(← grammar { context with noConditionalType := false } .type).node]
  else pure []

/-- A value behind an equals sign. -/
def defaultValue (grammar : Grammar) (context : Context) : Reader (List Node) := do
  if ← eat "=" then return [← value grammar context .assignment]
  else pure []

/-! ### Patterns -/

/-- A name or a pattern, perhaps with a value to fall back on. -/
def patternItem (grammar : Grammar) (context : Context) : Reader Piece := do
  let item ← grammar context .binding
  let nodes ← defaultValue grammar context
  pure { node := .group (item.node :: nodes), names := item.names }

/-- A pattern for the elements of a list, behind its bracket. -/
def listPattern (grammar : Grammar) (context : Context) : Reader Piece := do
  let items ← iterate (fun (items : List Piece) => do
    if ← atMark "]" then pure none
    else if ← eat "," then return some items
    else if ← eat "..." then
      let rest ← grammar context .binding
      check (← atMark "]")
      return some (items ++ [rest])
    else
      let item ← patternItem grammar context
      if !(← eat ",") then check (← atMark "]")
      return some (items ++ [item])) context.limit []
  expect "]"
  pure (.gather items)

/-- A pattern for one property: a key with a pattern, or a name that is both. -/
def propertyPattern (grammar : Grammar) (context : Context) : Reader Piece := do
  let cursor ← here
  let key ← propertyKey grammar context false
  if ← eat ":" then
    let item ← patternItem grammar context
    pure { item with node := .group (key ++ [item.node]) }
  else
    check (cursor.isIdentifierIn context)
    let nodes ← defaultValue grammar context
    pure { node := .group nodes, names := cursor.name?.toList }

/-- A pattern for properties, behind its brace. -/
def objectPattern (grammar : Grammar) (context : Context) : Reader Piece := do
  let close := "\x7d"
  let items ← iterate (fun (items : List Piece) => do
    if ← atMark close then pure none
    else if ← eat "..." then
      let rest ← grammar context .binding
      check (← atMark close)
      return some (items ++ [rest])
    else
      let item ← propertyPattern grammar context
      if !(← eat ",") then check (← atMark close)
      return some (items ++ [item])) context.limit []
  expect close
  pure (.gather items)

/-- A name or a pattern of names to bind. -/
def binding (grammar : Grammar) (context : Context) : Reader Piece := do
  if ← eat "[" then listPattern grammar context.nested
  else if ← eat "\x7b" then objectPattern grammar context.nested
  else return { node := .leaf, names := [← identifier context] }

/-! ### Parameters -/

/-- Decorators in front of a class, a member or a parameter. -/
def decorators (grammar : Grammar) (context : Context) : Reader (List Node) :=
  many context.limit (do return !(← atMark "@")) do
    step
    value grammar { context with inDecorator := true } .leftHandSide

/-- Whether the token can start a parameter behind a modifier. -/
def Cursor.isParameterStart (cursor : Cursor) : Bool :=
  !cursor.afterLineEnd &&
    (cursor.isName || cursor.isMark "[" || cursor.isMark "\x7b" || cursor.isMark "...")

/-- Parameters in parentheses: what is inside them, and how many there are. -/
def parameters (grammar : Grammar) (context : Context) : Reader (List Node × Nat) := do
  let context := context.nested
  let hasTypes := context.dialect.hasTypes
  expect "("
  let (nodes, n) ← iterate (fun ((nodes, n) : List Node × Nat) => do
    if ← atMark ")" then pure none
    else
      let decorators ← decorators grammar context
      if hasTypes then
        discard <| modifiers context.limit
          ["public", "private", "protected", "readonly", "override"] Cursor.isParameterStart
      if ← eat "..." then
        let rest ← grammar context .binding
        let type ← annotation grammar context
        check (← atMark ")")
        return some (nodes ++ decorators ++ rest.node :: type, n + 1)
      else
        let isThis := hasTypes && (← here).isWord "this"
        let item ← if isThis then (do step; pure Piece.none) else grammar context .binding
        discard <| eatWhere hasTypes "?"
        let type ← annotation grammar context
        let default ← defaultValue grammar context
        if !(← eat ",") then check (← atMark ")")
        return some (nodes ++ decorators ++ item.node :: type ++ default, n + 1))
    context.limit ([], 0)
  expect ")"
  pure (nodes, n)

end Restyle.Script
