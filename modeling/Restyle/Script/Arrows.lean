import Restyle.Script.Functions

/-!
# Arrow functions

A parenthesis may open the parameters of an arrow function or an expression, and an opening
angle bracket may open its types, an element, or a type that a value is taken for. So the
head of an arrow function, up to the arrow, is only tried.

Behind the question mark of a conditional expression a colon may belong to that expression
or to the result type of an arrow function. It is the latter only if another colon follows
the function.
-/

namespace Restyle.Script

/-- Whether the token is an arrow where one can stand. -/
def Cursor.isArrow (cursor : Cursor) : Bool :=
  cursor.isMark "=>" && !cursor.afterLineEnd

/-- An arrow, and the body behind it. -/
def arrowBody (grammar : Grammar) (context : Context) (isAsync : Bool) :
    Reader (List Node) := do
  check (← here).isArrow
  step
  if ← atMark "\x7b" then block grammar (context.function isAsync false)
  else
    return [← value grammar { context with inAsync := isAsync, inGenerator := false } .assignment]

/-- The head of an arrow function with parentheses, and whether it tells the type of the
result. -/
def arrowHead (grammar : Grammar) (context : Context) (isAsync : Bool) :
    Reader (List Node × Bool) := do
  let context := { context.nested with inAsync := isAsync }
  let generics ← typeParametersIfAny grammar context
  let (nodes, _) ← parameters grammar context
  let result ← resultAnnotation grammar context
  check (← here).isArrow
  pure (generics ++ nodes ++ result, !result.isEmpty)

/-- An arrow function with parentheses, if there is one. -/
def longArrow? (grammar : Grammar) (context : Context) (isAsync : Bool) :
    Reader (Option Piece) := do
  let start ← here
  match ← attempt (arrowHead grammar context isAsync) with
  | none => pure none
  | some (nodes, hasResult) =>
    if context.arrowNeedsColon && hasResult then
      match ← attempt (arrowBody grammar context isAsync) with
      | some body =>
        if ← atMark ":" then return some (.ofNodes (nodes ++ body))
      | none => pure ()
      set start
      pure none
    else return some (.ofNodes (nodes ++ (← arrowBody grammar context isAsync)))

/-- Whether the opening angle bracket that the token is can open the types of an arrow
function. Where elements are part of the language, only a comma, an equals sign or a bound
behind a variable tells. -/
def Cursor.opensArrowTypes (cursor : Cursor) (dialect : Dialect) : Bool :=
  cursor.isMark "<" && dialect.hasTypes &&
    (!dialect.hasElements ||
      let first := cursor.next
      let second := first.next
      first.isName &&
        (first.isWord "const" || second.isMark "," || second.isMark "=" ||
          (second.isWord "extends" &&
            !(second.next.isMark "=" || second.next.isMark ">" || second.next.isMark "/"))))

/-- An arrow function, if there is one. -/
def arrow? (grammar : Grammar) (context : Context) : Reader (Option Piece) := do
  let cursor ← here
  let next := cursor.next
  if cursor.isWord "async" && !next.afterLineEnd && next.isIdentifier && next.next.isArrow then
    step
    step
    return some (.ofNodes (← arrowBody grammar context true))
  else if cursor.isWord "async" && !next.afterLineEnd && next.startsSignature then
    step
    match ← longArrow? grammar context true with
    | some piece => pure (some piece)
    | none =>
      set cursor
      pure none
  else if cursor.isIdentifierIn context && next.isArrow then
    step
    return some (.ofNodes (← arrowBody grammar context false))
  else if cursor.isMark "(" || cursor.opensArrowTypes context.dialect then
    longArrow? grammar context false
  else pure none

end Restyle.Script
