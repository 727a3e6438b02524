import Restyle.Script.Functions

/-!
# Lists and objects

Literals of lists and objects, which are patterns to assign to as well. Which of the two
stands in the text shows only behind its closing bracket, so a piece carries both answers:
whether it can be assigned to, and whether it has to be.
-/

namespace Restyle.Script

/-- Items separated by commas, up to a closing mark, which is read as well. The whole is a
pattern if all items are, a rest being the last one with nothing behind it. -/
def itemsUpTo (limit : Nat) (close : String) (item : Reader Piece) : Reader Piece := do
  let (items, restIsLast) ← iterate (fun ((items, restIsLast) : List Piece × Bool) => do
    if ← atMark close then pure none
    else
      let isRest ← atMark "..."
      let found ← item
      let hasComma ← eat ","
      check (hasComma || (← atMark close))
      return some (items ++ [found], restIsLast && !(isRest && hasComma))) limit ([], true)
  expect close
  let isPattern := restIsLast && items.all (·.isElement)
  pure { node := .group (items.map (·.node)), isTarget := isPattern, isElement := isPattern,
         needsTarget := items.any (·.needsTarget) }

/-- An element of a list, which may be missing. -/
def listItem (grammar : Grammar) (context : Context) : Reader Piece := do
  if ← atMark "," then pure { Piece.none with isElement := true }
  else if ← eat "..." then
    let rest ← grammar context .assignment
    pure { rest with isElement := rest.isTarget }
  else grammar context .assignment

/-- The literal of a list, from its bracket on. -/
def listLiteral (grammar : Grammar) (context : Context) : Reader Piece := do
  expect "["
  itemsUpTo context.limit "]" (listItem grammar context.nested)

/-- What is behind the key of an object: a value, or nothing if the key is a variable. -/
def propertyValue (grammar : Grammar) (context : Context) (key : Cursor) : Reader Piece := do
  if ← eat ":" then grammar context .assignment
  else
    check (key.isIdentifierIn context)
    let default ← defaultValue grammar context
    pure { node := .group default, isElement := true, needsTarget := !default.isEmpty }

/-- A member of an object. -/
def objectItem (grammar : Grammar) (context : Context) : Reader Piece := do
  if ← eat "..." then
    let rest ← grammar context .assignment
    pure { rest with isElement := rest.isPlace }
  else
    let manner ← manner
    let cursor ← here
    let key ← propertyKey grammar context false
    if (← here).startsSignature then
      return .ofNodes (key ++ (← method grammar context manner true))
    else
      check manner.isPlain
      let found ← propertyValue grammar context cursor
      pure { node := .group (key ++ [found.node]), isElement := found.isElement,
             needsTarget := found.needsTarget }

/-- The literal of an object, from its brace on. -/
def objectLiteral (grammar : Grammar) (context : Context) : Reader Piece := do
  expect "\x7b"
  itemsUpTo context.limit "\x7d" (objectItem grammar context.nested)

end Restyle.Script
