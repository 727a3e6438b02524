import Restyle.Script.Classes

/-!
# Declarations

Variables, functions and classes, and what only a language with types has: interfaces, names
for types, enumerations, and spaces of names. A declaration tells which names it binds, for
whoever exports it.
-/

namespace Restyle.Script

/-! ### Variables -/

/-- The variables of a declaration behind its word, and whether each of them has the value
that it needs: a constant needs one, and so does a pattern. -/
def declarators (grammar : Grammar) (context : Context) (areConstant : Bool) :
    Reader (Piece × Bool) := do
  let found ← separated context.limit "," do
    let cursor ← here
    let item ← grammar context .binding
    discard <| eatWhere context.dialect.hasTypes "!"
    let type ← annotation grammar context
    let default ← defaultValue grammar context
    let piece : Piece := { node := .group (item.node :: type ++ default), names := item.names }
    pure (piece, !default.isEmpty || (cursor.isName && !areConstant))
  pure (.gather (found.map (·.1)), found.all (·.2))

/-- Whether the token starts the declaration of variables. -/
def Cursor.startsVariables (cursor : Cursor) : Bool :=
  let next := cursor.next
  cursor.isWord "var" || cursor.isWord "const" ||
    (cursor.isWord "let" &&
      ((next.isName && !next.isWord "in") || next.isMark "[" || next.isMark "\x7b")) ||
    (cursor.isWord "using" && next.isIdentifier && !next.afterLineEnd && !next.isWord "of") ||
    (cursor.isWord "await" && next.isWord "using" && next.next.isIdentifier &&
      !next.afterLineEnd && !next.next.afterLineEnd)

/-- Variables from their word on, and whether each of them has the value that it needs. -/
def variableList (grammar : Grammar) (context : Context) : Reader (Piece × Bool) := do
  discard <| eatWord "await"
  let areConstant := !((← here).isWord "var" || (← here).isWord "let")
  step
  declarators grammar context areConstant

/-- Variables as a statement. -/
def variableDeclaration (grammar : Grammar) (context : Context) : Reader Piece := do
  let (piece, isComplete) ← variableList grammar context
  check (isComplete || context.isAmbient)
  endOfStatement
  pure piece

/-! ### Types -/

/-- The name of something that is declared. -/
def declaredName : Reader String := do
  check (← here).isIdentifier
  anyName

/-- An interface. -/
def interfaceDeclaration (grammar : Grammar) (context : Context) : Reader Piece := do
  expectWord "interface"
  let name ← declaredName
  let generics ← typeParametersIfAny grammar context
  let bases ← if ← eatWord "extends" then
      separated context.limit "," (typeReference grammar context)
    else pure []
  let members ← typeMembers grammar context
  pure { node := .group (generics ++ bases ++ members), names := [name] }

/-- A name for a type. -/
def typeDeclaration (grammar : Grammar) (context : Context) : Reader Piece := do
  expectWord "type"
  let name ← declaredName
  let generics ← typeParametersIfAny grammar context
  expect "="
  let type ← typeNode grammar context
  endOfStatement
  pure { node := .group (generics ++ [type]), names := [name] }

/-- The key of a member of an enumeration: a name or a string, in brackets or not. -/
def enumerationKey (context : Context) : Reader (List Node) := do
  let key : Reader (List Node) := do
    if (← here).isString then return [← stringLiteral] else failure
  if ← eat "[" then
    let nodes ← if (← here).isTemplate then template context.limit false failure else key
    expect "]"
    pure nodes
  else if (← here).isName then
    step
    pure []
  else key

/-- An enumeration. -/
def enumeration (grammar : Grammar) (context : Context) : Reader Piece := do
  discard <| eatWord "const"
  expectWord "enum"
  let name ← declaredName
  expect "\x7b"
  let members ← commaList context.limit "\x7d" do
    let key ← enumerationKey context
    return key ++ (← defaultValue grammar context.nested)
  pure { node := .group members.flatten, names := [name] }

/-- A space of names, or a module that is defined elsewhere. -/
def namespaceDeclaration (grammar : Grammar) (context : Context) : Reader Piece := do
  step
  let cursor ← here
  let source ← if cursor.isString then (do return [← stringLiteral])
    else if cursor.isMark "\x7b" then pure []
    else (do qualifiedName context.limit; pure [])
  if cursor.isString && !(← atMark "\x7b") then
    endOfStatement
    pure (.ofNodes source)
  else
    let nodes ← block grammar context.nested
    pure { node := .group (source ++ nodes), names := cursor.name?.toList }

/-! ### All declarations -/

/-- The words that start a declaration of what is defined elsewhere behind `declare`. -/
def declarableWords : List String :=
  ["var", "let", "const", "function", "async", "class", "abstract", "enum", "interface", "type",
    "namespace", "module", "global", "using"]

/-- Whether the token starts a declaration that takes a language with types. -/
def Cursor.startsTypedDeclaration (cursor : Cursor) : Bool :=
  let next := cursor.next
  cursor.isWord "enum" || (cursor.isWord "const" && next.isWord "enum") ||
    (cursor.isWord "global" && next.isMark "\x7b") ||
    (!next.afterLineEnd &&
      ((["interface", "type", "namespace", "module"].any cursor.isWord && next.isIdentifier) ||
        (cursor.isWord "module" && next.isString) ||
        (cursor.isWord "abstract" && next.isWord "class") ||
        (cursor.isWord "declare" && declarableWords.any next.isWord)))

/-- Whether the token starts a declaration. -/
def Cursor.startsDeclaration (cursor : Cursor) (context : Context) : Bool :=
  (context.dialect.hasTypes && cursor.startsTypedDeclaration) || cursor.startsVariables ||
    cursor.startsFunction || cursor.isWord "class"

/-- A declaration. -/
def declaration (grammar : Grammar) (context : Context) : Reader Piece := do
  let hasTypes := context.dialect.hasTypes
  let isElsewhere := hasTypes && (← here).isWord "declare"
  if isElsewhere then step
  let context := { context with isAmbient := context.isAmbient || isElsewhere }
  let cursor ← here
  if cursor.isWord "enum" || (cursor.isWord "const" && cursor.next.isWord "enum") then
    check hasTypes
    enumeration grammar context
  else if cursor.startsVariables then variableDeclaration grammar context
  else if cursor.startsFunction then functionDeclaration grammar context false
  else if cursor.isWord "class" then classDefinition grammar context true
  else
    check hasTypes
    if cursor.isWord "abstract" then
      step
      classDefinition grammar context true
    else if cursor.isWord "interface" then interfaceDeclaration grammar context
    else if cursor.isWord "type" then typeDeclaration grammar context
    else namespaceDeclaration grammar context

end Restyle.Script
