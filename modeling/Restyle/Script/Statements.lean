import Restyle.Script.Modules

/-!
# Statements

The statements of a script. Where a single statement stands – behind a condition, in a loop,
behind a label – a declaration that would be seen by nobody is refused.
-/

namespace Restyle.Script

/-- The node of a statement where no list of statements is expected. -/
def nestedStatement (grammar : Grammar) (context : Context) : Reader Node := do
  return (← grammar context (.statement true)).node

/-- An expression in parentheses in front of a statement. -/
def condition (grammar : Grammar) (context : Context) : Reader Node := do
  expect "("
  let node ← value grammar context.nested .expression
  expect ")"
  pure node

/-! ### Choices and loops -/

/-- A choice between two statements. -/
def ifStatement (grammar : Grammar) (context : Context) : Reader (List Node) := do
  expectWord "if"
  let test ← condition grammar context
  let thenNode ← nestedStatement grammar context
  let elseNodes ← if ← eatWord "else" then (do return [← nestedStatement grammar context])
    else pure []
  pure (test :: thenNode :: elseNodes)

/-- A loop that tests behind each round. -/
def doStatement (grammar : Grammar) (context : Context) : Reader (List Node) := do
  expectWord "do"
  let body ← nestedStatement grammar context
  expectWord "while"
  let test ← condition grammar context
  discard <| eat ";"
  pure [body, test]

/-- What a loop starts from, up to the mark or the word behind it, and whether it can take
one value after the other. -/
def loopStart (grammar : Grammar) (context : Context) : Reader (Node × Bool) := do
  let inner := { context with allowsIn := false }
  if (← here).startsVariables then
    let (piece, isComplete) ← variableList grammar inner
    let takesValues := (← atWord "of") || (← atWord "in")
    check (takesValues || isComplete)
    pure (piece.node, true)
  else
    let piece ← grammar inner .expression
    if (← atWord "of") || (← atWord "in") then pure (piece.node, piece.isTarget)
    else
      check !piece.needsTarget
      pure (piece.node, false)

/-- An expression in the head of a loop, which may be missing, up to a mark. -/
def loopPart (grammar : Grammar) (context : Context) (mark : String) : Reader (List Node) := do
  if ← eat mark then pure []
  else
    let node ← value grammar context .expression
    expect mark
    pure [node]

/-- The head of a loop behind its parenthesis, with the closing one. -/
def loopHead (grammar : Grammar) (context : Context) (isAwaited : Bool) :
    Reader (List Node) := do
  let rounds : Reader (List Node) := do
    let test ← loopPart grammar context ";"
    let change ← loopPart grammar context ")"
    pure (test ++ change)
  if ← eat ";" then
    check !isAwaited
    rounds
  else
    let (start, takesValues) ← loopStart grammar context
    if ← eatWord "of" then
      check takesValues
      let source ← value grammar context .assignment
      expect ")"
      pure [start, source]
    else if ← eatWord "in" then
      check (takesValues && !isAwaited)
      let source ← value grammar context .expression
      expect ")"
      pure [start, source]
    else
      check !isAwaited
      expect ";"
      return start :: (← rounds)

/-- A loop with a head. -/
def forStatement (grammar : Grammar) (context : Context) : Reader (List Node) := do
  expectWord "for"
  let isAwaited ← if context.inAsync then eatWord "await" else pure false
  expect "("
  let head ← loopHead grammar context.nested isAwaited
  return head ++ [← nestedStatement grammar context]

/-- One case of a switch. -/
def switchCase (grammar : Grammar) (context : Context) : Reader (List Node) := do
  let test ← if ← eatWord "default" then pure []
    else do
      expectWord "case"
      let node ← value grammar context.nested .expression
      pure [node]
  expect ":"
  let isDone := do
    return (← atMark "\x7d") || (← atWord "case") || (← atWord "default")
  let pieces ← many context.limit isDone (grammar context (.statement false))
  pure (test ++ pieces.map (·.node))

/-- A choice between many cases. -/
def switchStatement (grammar : Grammar) (context : Context) : Reader (List Node) := do
  expectWord "switch"
  let test ← condition grammar context
  expect "\x7b"
  let cases ← many context.limit (atMark "\x7d") (switchCase grammar context)
  expect "\x7d"
  pure (test :: cases.flatten)

/-! ### Ways out -/

/-- The value behind a word, unless the statement ends there. -/
def resultStatement (grammar : Grammar) (context : Context) : Reader (List Node) := do
  step
  let nodes ← if (← here).endsStatement then pure []
    else (do return [← value grammar context.nested .expression])
  endOfStatement
  pure nodes

/-- A jump, perhaps to a label on the same line. -/
def jumpStatement : Reader (List Node) := do
  step
  if !(← here).endsStatement then
    check (← here).isIdentifier
    step
  endOfStatement
  pure []

/-- What to do about what goes wrong. -/
def tryStatement (grammar : Grammar) (context : Context) : Reader (List Node) := do
  expectWord "try"
  let body ← block grammar context
  let (hasHandler, handler) ← if ← eatWord "catch" then do
      let caught ← if ← eat "(" then do
          let piece ← grammar context.nested .binding
          let type ← annotation grammar context
          expect ")"
          pure (piece.node :: type)
        else pure []
      pure (true, caught ++ (← block grammar context))
    else pure (false, [])
  if ← eatWord "finally" then return body ++ handler ++ (← block grammar context)
  else
    check hasHandler
    pure (body ++ handler)

/-! ### All statements -/

/-- An expression as a statement. -/
def expressionStatement (grammar : Grammar) (context : Context) : Reader (List Node) := do
  let node ← value grammar context .expression
  endOfStatement
  pure [node]

/-- A statement that starts with a word of its own, if there is one. -/
def wordStatement? (grammar : Grammar) (context : Context) (cursor : Cursor) :
    Option (Reader (List Node)) :=
  match cursor.kind with
  | .name "if" false => some (ifStatement grammar context)
  | .name "do" false => some (doStatement grammar context)
  | .name "for" false => some (forStatement grammar context)
  | .name "while" false => some do
      step
      return [← condition grammar context, ← nestedStatement grammar context]
  | .name "with" false => some do
      step
      return [← condition grammar context, ← nestedStatement grammar context]
  | .name "switch" false => some (switchStatement grammar context)
  | .name "try" false => some (tryStatement grammar context)
  | .name "continue" false => some jumpStatement
  | .name "break" false => some jumpStatement
  | .name "debugger" false => some do
      step
      endOfStatement
      pure []
  | .name "return" false => some do
      check context.inFunction
      resultStatement grammar context
  | .name "throw" false => some do
      check !cursor.next.endsStatement
      resultStatement grammar context
  | _ => none

/-- Whether the declaration that the token starts may stand as a single statement. -/
def Cursor.mayStandAlone (cursor : Cursor) (context : Context) : Bool :=
  cursor.isWord "var" || (cursor.isWord "function" && !cursor.next.isMark "*") ||
    (context.dialect.hasTypes && cursor.startsTypedDeclaration)

/-- A class behind its decorators, exported or not. -/
def decoratedStatement (grammar : Grammar) (context : Context) : Reader Piece := do
  let decorators ← decorators grammar context
  let cursor ← here
  let piece ← if cursor.isWord "export" then exportDeclaration grammar context
    else do
      check (cursor.isWord "class" || cursor.isWord "abstract" || cursor.isWord "declare")
      let piece ← declaration grammar context
      pure { piece with names := [] }
  pure { piece with node := .group (decorators ++ [piece.node]) }

/-- A statement, with the names that it exports. -/
def statement (grammar : Grammar) (context : Context) (isNested : Bool) : Reader Piece := do
  let cursor ← here
  let next := cursor.next
  if cursor.isMark "\x7b" then return .ofNodes (← block grammar context)
  else if cursor.isMark ";" then
    step
    pure .none
  else if cursor.isMark "@" then decoratedStatement grammar context
  else if cursor.isWord "export" then exportDeclaration grammar context
  else if cursor.isWord "import" && !next.isMark "(" && !next.isMark "." then
    importDeclaration context
  else if cursor.startsDeclaration context then
    check (!isNested || cursor.mayStandAlone context)
    return { ← declaration grammar context with names := [] }
  else
    match wordStatement? grammar context cursor with
    | some reader => return .ofNodes (← reader)
    | none =>
      if cursor.isIdentifierIn context && next.isMark ":" then
        step
        step
        return .ofNodes [← nestedStatement grammar context]
      else return .ofNodes (← expressionStatement grammar context)

end Restyle.Script
