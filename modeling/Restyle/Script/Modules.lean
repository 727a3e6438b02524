import Restyle.Script.Declarations

/-!
# Imports and exports

What a module takes from others and what it gives to them. Names of other modules may be
strings, and a string that is exported under its own name is there twice: as the name of the
thing and as the name that it gets.
-/

namespace Restyle.Script

/-! ### Parts -/

/-- What is said of a module that is taken from: strings by name, in braces. -/
def sourceAttributes (context : Context) : Reader (List Node) := do
  let cursor ← here
  if (cursor.isWord "with" || (cursor.isWord "assert" && !cursor.afterLineEnd)) &&
      cursor.next.isMark "\x7b" then
    step
    step
    let nodes ← commaList context.limit "\x7d" do
      let (key, _) ← exportName
      expect ":"
      return key ++ [← stringLiteral]
    pure nodes.flatten
  else pure []

/-- The name of a module at the end of a statement. -/
def moduleSource (context : Context) : Reader (List Node) := do
  let source ← stringLiteral
  let nodes ← sourceAttributes context
  endOfStatement
  pure (source :: nodes)

/-- A thing that is imported or exported. -/
structure Specifier where
  /-- The name that it has. -/
  name : Cursor
  /-- The name that it gets. -/
  newName : Cursor

/-- The string literal that a token is, as a list. -/
def Cursor.literals (cursor : Cursor) : List Node :=
  match cursor.kind with
  | .string value => [.literal ⟨cursor.start, cursor.stop, value, false⟩]
  | _ => []

/-- The text of a name or a string. -/
def Cursor.nameOrString? (cursor : Cursor) : Option String :=
  match cursor.kind with
  | .name text _ => some text
  | .string value => some value
  | _ => none

/-- The string literals of a specifier. -/
def Specifier.literals (specifier : Specifier) : List Node :=
  specifier.name.literals ++ specifier.newName.literals

/-- The specifier that some names and strings in a row are. -/
def Specifier.ofCursors? (hasTypes : Bool) : List Cursor → Option Specifier
  | [name] => some ⟨name, name⟩
  | [word, name] => if hasTypes && word.isWord "type" then some ⟨name, name⟩ else none
  | [name, word, newName] => if word.isWord "as" then some ⟨name, newName⟩ else none
  | [first, name, word, newName] =>
    if hasTypes && first.isWord "type" && word.isWord "as" then some ⟨name, newName⟩ else none
  | _ => none

/-- Specifiers in braces. -/
def specifiers (context : Context) : Reader (List Specifier) := do
  expect "\x7b"
  commaList context.limit "\x7d" do
    let cursors ← iterate (fun cursors => do
      let cursor ← here
      if cursor.nameOrString?.isSome then
        step
        return some (cursors ++ [cursor])
      else pure none) 6 []
    match Specifier.ofCursors? context.dialect.hasTypes cursors with
    | some specifier => pure specifier
    | none => failure

/-! ### Imports -/

/-- A name for a part of a space of names or for a module as a whole. -/
def importAlias (context : Context) : Reader (List Node) := do
  discard declaredName
  expect "="
  let nodes ← if (← atWord "require") && (← nextIs (·.isMark "(")) then do
      step
      step
      let source ← stringLiteral
      expect ")"
      pure [source]
    else (do qualifiedName context.limit; pure [])
  endOfStatement
  pure nodes

/-- Whether the word `type` that the token is makes an import one of types. -/
def Cursor.importsTypes (cursor : Cursor) : Bool :=
  let next := cursor.next
  cursor.isWord "type" &&
    (next.isMark "\x7b" || next.isMark "*" ||
      (next.isName && !(next.isWord "from" && next.next.isString)))

/-- What is imported, in braces or as a whole. -/
def importedNames (context : Context) : Reader (List Node) := do
  if ← eat "*" then
    expectWord "as"
    discard declaredName
    pure []
  else
    let specifiers ← specifiers context
    check (specifiers.all (·.newName.isIdentifier))
    pure (specifiers.flatMap (·.literals))

/-- An import. -/
def importDeclaration (context : Context) : Reader Piece := do
  expectWord "import"
  if (← here).isString then return .ofNodes (← moduleSource context)
  else
    let hasTypes := context.dialect.hasTypes
    if hasTypes && (← here).importsTypes then step
    let cursor ← here
    if hasTypes && cursor.isIdentifier && cursor.next.isMark "=" then
      return .ofNodes (← importAlias context)
    else
      let nodes ← if cursor.isIdentifier then do
          step
          if ← eat "," then importedNames context else pure []
        else importedNames context
      expectWord "from"
      return .ofNodes (nodes ++ (← moduleSource context))

/-! ### Exports -/

/-- What is exported as the main thing of a module. -/
def exportDefault (grammar : Grammar) (context : Context) : Reader Node := do
  let hasTypes := context.dialect.hasTypes
  let cursor ← here
  let next := cursor.next
  if cursor.startsFunction then return (← functionDeclaration grammar context true).node
  else if cursor.isMark "@" || cursor.isWord "class" ||
      (hasTypes && cursor.isWord "abstract" && next.isWord "class" && !next.afterLineEnd) then
    let decorators ← decorators grammar context
    if hasTypes then discard <| eatWord "abstract"
    let piece ← classDefinition grammar context false
    pure (.group (decorators ++ [piece.node]))
  else if hasTypes && cursor.isWord "interface" && next.isIdentifier && !next.afterLineEnd then
    return (← interfaceDeclaration grammar context).node
  else
    let node ← value grammar context .assignment
    endOfStatement
    pure node

/-- What is exported out of another module, or by names of this one. -/
def exportedNames (context : Context) : Reader Piece := do
  if ← eat "*" then
    let (nodes, name) ← if ← eatWord "as" then exportName else pure ([], none)
    expectWord "from"
    return { node := .group (nodes ++ (← moduleSource context)), names := name.toList }
  else
    let specifiers ← specifiers context
    let nodes := specifiers.flatMap (·.literals)
    let names := specifiers.filterMap (·.newName.nameOrString?)
    if ← eatWord "from" then
      return { node := .group (nodes ++ (← moduleSource context)), names }
    else
      check (specifiers.all (·.name.isIdentifier))
      endOfStatement
      pure { node := .group nodes, names }

/-- An export that takes a language with types, if there is one. -/
def typedExport? (grammar : Grammar) (context : Context) : Reader (Option Piece) := do
  let cursor ← here
  let next := cursor.next
  if cursor.isWord "type" && (next.isMark "\x7b" || next.isMark "*") then
    step
    return some (← exportedNames context)
  else if cursor.isMark "=" then
    step
    let node ← value grammar context .expression
    endOfStatement
    pure (some { node })
  else if cursor.isWord "as" && next.isWord "namespace" then
    step
    step
    discard declaredName
    endOfStatement
    pure (some .none)
  else if cursor.isWord "import" then
    step
    if (← here).importsTypes then step
    return some (.ofNodes (← importAlias context))
  else pure none

/-- An export, with the names that are exported. -/
def exportDeclaration (grammar : Grammar) (context : Context) : Reader Piece := do
  expectWord "export"
  let typed ← if context.dialect.hasTypes then typedExport? grammar context else pure none
  match typed with
  | some piece => pure piece
  | none =>
    let cursor ← here
    if ← eatWord "default" then
      return { node := ← exportDefault grammar context, names := ["default"] }
    else if cursor.isMark "*" || cursor.isMark "\x7b" then exportedNames context
    else
      let decorators ← decorators grammar context
      check (decorators.isEmpty || !(← here).startsVariables)
      let piece ← declaration grammar context
      pure { piece with node := .group (decorators ++ [piece.node]) }

end Restyle.Script
