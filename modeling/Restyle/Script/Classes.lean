import Restyle.Script.Functions

/-!
# Classes

A class is what it extends and its members: fields, methods, blocks that run once, and,
where types are part of the language, signatures.
-/

namespace Restyle.Script

/-- The words that may stand in front of a member of a class. -/
def memberModifiers (hasTypes : Bool) : List String :=
  ["static", "accessor"] ++
    if hasTypes then
      ["public", "private", "protected", "readonly", "abstract", "declare", "override"]
    else []

/-- Whether the token can start a member of a class behind a modifier. -/
def Cursor.isMemberStart (cursor : Cursor) : Bool :=
  !cursor.afterLineEnd && (cursor.isKeyStart || cursor.isMark "*")

/-- A field or a method of a class. -/
def classMember (grammar : Grammar) (context : Context) : Reader (List Node) := do
  let hasTypes := context.dialect.hasTypes
  discard <| modifiers context.limit (memberModifiers hasTypes) Cursor.isMemberStart
  if hasTypes && (← here).startsIndex then
    let nodes ← indexSignature grammar context
    endOfMember
    pure nodes
  else
    let manner ← manner
    let key ← propertyKey grammar context true
    if !(← eatWhere hasTypes "?") then discard <| eatWhere hasTypes "!"
    if (← here).startsSignature then
      return key ++ (← method grammar context manner false)
    else
      check manner.isPlain
      let type ← annotation grammar context
      let default ← defaultValue grammar { context with inAsync := false, inGenerator := false }
      endOfStatement
      pure (key ++ type ++ default)

/-- A member of a class, or a semicolon between two of them. -/
def classItem (grammar : Grammar) (context : Context) : Reader (List Node) := do
  if ← eat ";" then pure []
  else
    let decorators ← decorators grammar context
    let cursor ← here
    if cursor.isWord "static" && cursor.next.isMark "\x7b" then
      step
      block grammar { context.function false false with inFunction := false }
    else return decorators ++ (← classMember grammar context)

/-- A class, from the word `class` on. -/
def classDefinition (grammar : Grammar) (context : Context) (isDeclaration : Bool) :
    Reader Piece := do
  let hasTypes := context.dialect.hasTypes
  expectWord "class"
  let cursor ← here
  let hasName := cursor.isIdentifier && !cursor.isWord "implements"
  check (hasName || !isDeclaration)
  if hasName then step
  let generics ← typeParametersIfAny grammar context
  let base ← if ← eatWord "extends" then do
      let base ← value grammar context.nested .leftHandSide
      let types ← if hasTypes then typeArgumentsIfAny grammar context else pure []
      pure (base :: types)
    else pure []
  let interfaces ← if hasTypes then do
      if ← eatWord "implements" then separated context.limit "," (typeReference grammar context)
      else pure []
    else pure []
  expect "\x7b"
  let members ← many context.limit (atMark "\x7d") (classItem grammar context.nested)
  expect "\x7d"
  pure { node := .group (generics ++ base ++ interfaces ++ members.flatten),
         names := if hasName then cursor.name?.toList else [] }

end Restyle.Script
