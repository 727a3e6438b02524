import Restyle.Script.Types

/-!
# Elements

Elements with their attributes and what is inside them. The text of an element is not cut
into tokens, so an element is read up to its last angle bracket and no further: what is
behind it is a token only outside of any other element.

A string of an attribute stands for itself, with no escapes in it, and may go over several
lines.
-/

namespace Restyle.Script

/-! ### Names -/

/-- The token as a name in which hyphens may stand. -/
def Cursor.asElementName? (cursor : Cursor) : Option Cursor :=
  if cursor.isName then
    let name := cursor.text.takeWhile fun c => isIdentifierPart c || c == '-'
    some (cursor.recut (.name (String.ofList name) false) name.length)
  else none

/-- A name in which hyphens may stand. -/
def hyphenatedName : Reader String := do
  match (← here).asElementName? with
  | some cursor =>
    set cursor.next
    pure (cursor.name?.getD "")
  | none => failure

/-- The name of an element with its marks: a plain one, one in a space of names, or a member
of something. -/
def elementName (limit : Nat) : Reader (List String) := do
  let name ← hyphenatedName
  if ← eat ":" then return [name, ":", ← hyphenatedName]
  else
    iterate (fun names => do
      if ← eat "." then return some (names ++ [".", ← anyName]) else pure none) limit [name]

/-! ### Attributes -/

/-- The string of an attribute. -/
def attributeString : Reader Node := do
  let cursor ← here
  match cursor.text with
  | quote :: rest =>
    let body := rest.takeWhile (· != quote)
    check (body.length < rest.length)
    let cursor := cursor.recut (.string (String.ofList body)) (body.length + 2)
    set cursor.next
    pure (.literal ⟨cursor.start, cursor.stop, String.ofList body, true⟩)
  | [] => failure

/-- An expression in braces, up to the closing one. -/
def embedded (grammar : Grammar) (context : Context) : Reader Node := do
  expect "\x7b"
  let node ← value grammar context.nested .expression
  check (← atMark "\x7d")
  pure node

/-- The value of an attribute: a string, an expression in braces or an element. -/
def attributeValue (grammar : Grammar) (context : Context) : Reader Node := do
  let cursor ← here
  if cursor.text.head? = some '"' ∨ cursor.text.head? = some '\'' then attributeString
  else
    let node ← if cursor.isMark "\x7b" then embedded grammar context
      else (do return (← grammar context .element).node)
    step
    pure node

/-- An attribute of an element, or attributes out of an object. -/
def elementAttribute (grammar : Grammar) (context : Context) : Reader Node := do
  if ← eat "\x7b" then
    expect "..."
    let node ← value grammar context.nested .assignment
    expect "\x7d"
    pure node
  else
    let name ← hyphenatedName
    let isQualified ← eat ":"
    if isQualified then discard hyphenatedName
    let parts ← if ← eat "=" then (do return [← attributeValue grammar context]) else pure []
    pure (.attribute (if isQualified then none else some name) parts)

/-! ### What is inside an element -/

/-- Goes on behind a token as text, up to the next mark that is not text. -/
def skipText : Reader Unit :=
  modify fun cursor =>
    let text := cursor.rest.takeWhile fun c => c != '<' && c != '\x7b'
    (Cursor.ofText (cursor.stop + text.length) (cursor.rest.drop text.length)).asOpeningAngle

/-- An expression in braces inside an element, which may be missing, up to the closing
brace. -/
def childExpression (grammar : Grammar) (context : Context) : Reader Node := do
  expect "\x7b"
  if ← atMark "\x7d" then pure .leaf
  else
    discard <| eat "..."
    let node ← value grammar context.nested .expression
    check (← atMark "\x7d")
    pure node

/-- What is inside an element, up to the bracket that opens its end. Before and after a
child the cursor is at the last token of what is in front. -/
def children (grammar : Grammar) (context : Context) : Reader (List Node) :=
  iterate (fun (nodes : List Node) => do
    skipText
    let cursor ← here
    if cursor.isMark "\x7b" then
      return some (nodes ++ [← childExpression grammar context])
    else if cursor.isMark "<" then
      if cursor.next.isMark "/" then pure none
      else return some (nodes ++ [(← grammar context .element).node])
    else failure) context.limit []

/-- The end of an element with a name, or with none, up to its last angle bracket. -/
def elementEnd (context : Context) (name : List String) : Reader Unit := do
  expect "<"
  expect "/"
  if name.isEmpty then check (← atMark ">")
  else
    check ((← elementName context.limit) == name)
    check (← atMark ">")

/-- An element, up to its last angle bracket. -/
def element (grammar : Grammar) (context : Context) : Reader Piece := do
  expect "<"
  if ← atMark ">" then
    let nodes ← children grammar context
    elementEnd context []
    pure (.ofNodes nodes)
  else
    let name ← elementName context.limit
    let types ← if context.dialect.hasTypes then typeArgumentsIfAny grammar context else pure []
    let attributes ← many context.limit
      (do return (← here).isMark "/" || (← here).isMark ">") (elementAttribute grammar context)
    if ← eat "/" then
      check (← atMark ">")
      pure (.ofNodes (types ++ attributes))
    else
      let nodes ← children grammar context
      elementEnd context name
      pure (.ofNodes (types ++ attributes ++ nodes))

end Restyle.Script
