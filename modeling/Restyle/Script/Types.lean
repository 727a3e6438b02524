import Restyle.Script.Bindings

/-!
# Types

The types of a script. They matter here for what is inside them – literal types, imported
modules, keys – and because a program cannot be read past a type that is not understood.

From the loosest to the tightest: function types and conditional types, unions,
intersections, operators in front of a type, brackets behind one. Two places need a look
ahead: an opening parenthesis starts the parameters of a function type or a type in
parentheses, and a brace starts an object type or a mapped one.
-/

namespace Restyle.Script

/-- A type where a conditional one needs no parentheses. -/
def typeNode (grammar : Grammar) (context : Context) : Reader Node := do
  return (← grammar { context with noConditionalType := false } .type).node

/-! ### Lists of types -/

/-- Types between angle brackets, one at least. -/
def typeArguments (grammar : Grammar) (context : Context) : Reader (List Node) := do
  modify Cursor.asOpeningAngle
  expect "<"
  check (!(← atMark ">"))
  commaList context.limit ">" (typeNode grammar context)

/-- Whether the token starts a list of types on the same line. -/
def Cursor.startsTypeArguments (cursor : Cursor) : Bool :=
  !cursor.afterLineEnd && cursor.asOpeningAngle.isMark "<"

/-- The types that a type is used with, if there are any on the same line. -/
def typeArgumentsIfAny (grammar : Grammar) (context : Context) : Reader (List Node) := do
  if (← here).startsTypeArguments then typeArguments grammar context else pure []

/-- A variable for types, with its bound and the type to fall back on. -/
def typeParameter (grammar : Grammar) (context : Context) : Reader Node := do
  discard <| modifiers context.limit ["const", "in", "out"]
    fun cursor => cursor.isName && !cursor.isWord "extends"
  check (← here).isIdentifier
  step
  let bound ← if ← eatWord "extends" then (do return [← typeNode grammar context]) else pure []
  let default ← if ← eat "=" then (do return [← typeNode grammar context]) else pure []
  pure (.group (bound ++ default))

/-- Variables for types between angle brackets, if there are any: one at least. -/
def typeParametersIfAny (grammar : Grammar) (context : Context) : Reader (List Node) := do
  if context.dialect.hasTypes && (← here).isMark "<" then
    step
    check (!(← atMark ">"))
    commaList context.limit ">" (typeParameter grammar context)
  else pure []

/-! ### Functions -/

/-- The type of a result, which may also tell what a parameter is. -/
def resultType (grammar : Grammar) (context : Context) : Reader Node := do
  let cursor ← here
  let next := cursor.next
  if cursor.isIdentifier && next.isWord "is" && !next.afterLineEnd then
    step
    step
    typeNode grammar context
  else return (← grammar context .type).node

/-- The type of a result behind a colon, where types are part of the language. -/
def resultAnnotation (grammar : Grammar) (context : Context) : Reader (List Node) := do
  if ← eatWhere context.dialect.hasTypes ":" then
    return [← resultType grammar { context with noConditionalType := false }]
  else pure []

/-- What a function is called with and what it results in: the nodes, and the number of
parameters. -/
def signature (grammar : Grammar) (context : Context) : Reader (List Node × Nat) := do
  let generics ← typeParametersIfAny grammar context
  let (nodes, n) ← parameters grammar context
  let result ← resultAnnotation grammar context
  pure (generics ++ nodes ++ result, n)

/-- Whether a parenthesis here can only open the parameters of a function type. -/
def opensParameters (grammar : Grammar) (context : Context) : Reader Bool :=
  ahead do
    expect "("
    let cursor ← here
    if cursor.isMark ")" || cursor.isMark "..." then pure true
    else
      if cursor.isIdentifier || cursor.isWord "this" then step
      else discard <| grammar context .binding
      let cursor ← here
      pure (cursor.isMark ":" || cursor.isMark "," || cursor.isMark "?" || cursor.isMark "=" ||
        (cursor.isMark ")" && cursor.next.isMark "=>"))

/-- Whether the type of a function or of a constructor starts here. -/
def startsFunctionType (grammar : Grammar) (context : Context) : Reader Bool := do
  let cursor ← here
  if cursor.isMark "<" || cursor.isWord "new" then pure true
  else if cursor.isWord "abstract" then pure (cursor.next.isWord "new")
  else opensParameters grammar context

/-- The type of a function or of a constructor. -/
def functionType (grammar : Grammar) (context : Context) : Reader Piece := do
  discard <| eatWord "abstract"
  discard <| eatWord "new"
  let generics ← typeParametersIfAny grammar context
  let (nodes, _) ← parameters grammar context
  expect "=>"
  let result ← resultType grammar context
  pure (.ofNodes (generics ++ nodes ++ [result]))

/-! ### Objects -/

/-- Whether the token can be the name of a property or start one. -/
def Cursor.isKeyStart (cursor : Cursor) : Bool :=
  cursor.isPlainKey || cursor.isMark "["

/-- Whether a signature for all keys of a type starts at the token. -/
def Cursor.startsIndex (cursor : Cursor) : Bool :=
  cursor.isMark "[" && cursor.next.isIdentifier && cursor.next.next.isMark ":"

/-- A signature for all keys of a type. -/
def indexSignature (grammar : Grammar) (context : Context) : Reader (List Node) := do
  expect "["
  step
  expect ":"
  let key ← typeNode grammar context
  expect "]"
  return key :: (← annotation grammar context)

/-- The end of a member of a type. -/
def endOfMember : Reader Unit := do
  if !(← eat ",") then endOfStatement

/-- Whether parameters start at the token. -/
def Cursor.startsSignature (cursor : Cursor) : Bool :=
  cursor.isMark "(" || cursor.isMark "<"

/-- A member of an object type or an interface. -/
def typeMember (grammar : Grammar) (context : Context) : Reader Node := do
  let cursor ← here
  if cursor.startsSignature || (cursor.isWord "new" && cursor.next.startsSignature) then
    discard <| eatWord "new"
    let (nodes, _) ← signature grammar context
    endOfMember
    pure (.group nodes)
  else
    discard <| modifiers context.limit ["readonly"]
      fun cursor => cursor.isKeyStart && !cursor.afterLineEnd
    discard <| modifiers 2 ["get", "set"] Cursor.isKeyStart
    if (← here).startsIndex then
      let nodes ← indexSignature grammar context
      endOfMember
      pure (.group nodes)
    else
      let key ← propertyKey grammar context false
      discard <| eat "?"
      if (← here).startsSignature then
        let (nodes, _) ← signature grammar context
        endOfMember
        pure (.group (key ++ nodes))
      else
        let type ← annotation grammar context
        endOfMember
        pure (.group (key ++ type))

/-- The members of an object type or an interface in braces. -/
def typeMembers (grammar : Grammar) (context : Context) : Reader (List Node) := do
  expect "\x7b"
  let nodes ← many context.limit (atMark "\x7d") (typeMember grammar context.nested)
  expect "\x7d"
  pure nodes

/-- Whether the brace that the token is opens a mapped type. -/
def Cursor.opensMappedType (cursor : Cursor) : Bool :=
  let first := cursor.next
  if first.isMark "+" || first.isMark "-" then first.next.isWord "readonly"
  else
    let bracket := if first.isWord "readonly" then first.next else first
    bracket.isMark "[" && bracket.next.isName && bracket.next.next.isWord "in"

/-- Steps behind a plus or a minus sign. -/
def sign : Reader Unit := do
  if !(← eat "+") then discard <| eat "-"

/-- A type that maps every key of another one. -/
def mappedType (grammar : Grammar) (context : Context) : Reader (List Node) := do
  let context := context.nested
  expect "\x7b"
  sign
  discard <| eatWord "readonly"
  expect "["
  step
  expectWord "in"
  let keys ← typeNode grammar context
  let renamed ← if ← eatWord "as" then (do return [← typeNode grammar context]) else pure []
  expect "]"
  sign
  discard <| eat "?"
  let type ← annotation grammar context
  if !(← eat ";") then discard <| eat ","
  expect "\x7d"
  pure (keys :: renamed ++ type)

/-! ### Single types -/

/-- An element of a tuple type: a type, perhaps with a name in front of it. -/
def tupleItem (grammar : Grammar) (context : Context) : Reader Node := do
  discard <| eat "..."
  let cursor ← here
  let next := cursor.next
  if cursor.isName && (next.isMark ":" || (next.isMark "?" && next.next.isMark ":")) then
    step
    discard <| eat "?"
    expect ":"
    typeNode grammar context
  else
    let type ← typeNode grammar context
    discard <| eat "?"
    pure type

/-- Names with points between them. -/
def qualifiedName (limit : Nat) : Reader Unit := do
  discard anyName
  discard <| iterate (fun () => do
    if ← eat "." then
      if (← here).kind == .privateName then step else discard anyName
      pure (some ())
    else pure none) limit ()

/-- A named type, with the types that it is used with. -/
def typeReference (grammar : Grammar) (context : Context) : Reader Node := do
  qualifiedName context.limit
  return .group (← typeArgumentsIfAny grammar context)

/-- A type out of another module. -/
def importType (grammar : Grammar) (context : Context) : Reader Node := do
  expectWord "import"
  expect "("
  let source ← typeNode grammar context
  let options ← if ← eat "," then
      if ← atMark ")" then pure []
      else
        let options ← value grammar context.nested .assignment
        discard <| eat ","
        pure [options]
    else pure []
  expect ")"
  if ← eat "." then qualifiedName context.limit
  return .group (source :: options ++ (← typeArgumentsIfAny grammar context))

/-- What a parameter turns out to be once a function is back. -/
def assertedType (grammar : Grammar) (context : Context) : Reader Node := do
  expectWord "asserts"
  step
  if ← eatWord "is" then typeNode grammar context else pure .leaf

/-- A type that starts with a word. -/
def namedType (grammar : Grammar) (context : Context) : Reader Node := do
  let cursor ← here
  let next := cursor.next
  if cursor.isWord "typeof" then
    step
    if ← atWord "import" then importType grammar context
    else typeReference grammar context
  else if cursor.isWord "import" then importType grammar context
  else if cursor.isWord "this" then
    step
    if next.isWord "is" && !next.afterLineEnd then
      step
      typeNode grammar context
    else pure .leaf
  else if cursor.isWord "asserts" && !next.afterLineEnd &&
      (next.isIdentifier || next.isWord "this") then assertedType grammar context
  else typeReference grammar context

/-- A type without anything behind it. -/
def simpleType (grammar : Grammar) (context : Context) : Reader Node := do
  let cursor ← here
  match cursor.kind with
  | .name _ _ => namedType grammar context
  | .string _ => stringLiteral
  | .number => step; pure .leaf
  | .template _ _ => return .group (← template context.limit false (typeNode grammar context))
  | .mark "-" => step; check ((← here).kind == .number); step; pure .leaf
  | .mark "\x7b" =>
    if cursor.opensMappedType then return .group (← mappedType grammar context)
    else return .group (← typeMembers grammar context)
  | .mark "[" => step; return .group (← commaList context.limit "]" (tupleItem grammar context))
  | .mark "(" =>
    step
    let type ← typeNode grammar context
    expect ")"
    pure type
  | _ => failure

/-- A type with brackets behind it, perhaps: a list of that type, or the type of its member. -/
def indexedType (grammar : Grammar) (context : Context) : Reader Piece := do
  let type ← simpleType grammar context
  let nodes ← iterate (fun (nodes : List Node) => do
    if (← here).afterLineEnd then pure none
    else if ← eat "[" then
      if ← eat "]" then return some nodes
      else
        let key ← typeNode grammar context
        expect "]"
        return some (nodes ++ [key])
    else pure none) context.limit [type]
  pure (.ofNodes nodes)

/-! ### Operators -/

/-- The bound of a type that is found by matching. In front of a question mark the bound is
the test of a conditional type instead. -/
def inferredBound (grammar : Grammar) (context : Context) : Reader (List Node) := do
  let found ← attempt do
    expectWord "extends"
    let bound ← grammar { context with noConditionalType := true } .type
    check (context.noConditionalType || !(← atMark "?"))
    pure bound.node
  pure found.toList

/-- A type with an operator in front of it, perhaps. -/
def unaryType (grammar : Grammar) (context : Context) : Reader Piece := do
  let cursor ← here
  if ["keyof", "unique", "readonly"].any cursor.isWord then
    step
    grammar context .unaryType
  else if cursor.isWord "infer" then
    step
    check (← here).isIdentifier
    step
    return .ofNodes (← inferredBound grammar context)
  else indexedType grammar { context with noConditionalType := false }

/-- Types with an operator between them, and perhaps in front of the first one. -/
def joinedTypes (limit : Nat) (mark : String) (item : Reader Piece) : Reader Piece := do
  discard <| eat mark
  return .gather (← separated limit mark item)

/-- A type. -/
def type (grammar : Grammar) (context : Context) : Reader Piece := do
  if ← startsFunctionType grammar context then functionType grammar context
  else
    let left ← joinedTypes context.limit "|"
      (joinedTypes context.limit "&" (grammar context .unaryType))
    let cursor ← here
    if !context.noConditionalType && !cursor.afterLineEnd && cursor.isWord "extends" then
      step
      let bound ← grammar { context with noConditionalType := true } .type
      expect "?"
      let thenType ← typeNode grammar context
      expect ":"
      let elseType ← typeNode grammar context
      pure (.ofNodes [left.node, bound.node, thenType, elseType])
    else pure left

end Restyle.Script
