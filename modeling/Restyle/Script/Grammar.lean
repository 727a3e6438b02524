import Restyle.Script.Cursor
import Restyle.Script.Node

/-!
# The shape of the grammar

A program is read by recursive descent. The readers of the grammar are spread over several
modules, and they all need each other: expressions hold functions, functions hold statements,
statements hold expressions, and types hold all of these. So no reader calls another one
that is defined later. A reader is written against a `Restyle.Script.Grammar`, which reads
any `Restyle.Script.Symbol` of the grammar; `Restyle.Script.Program` ties the knot, with a
bound on the depth that the length of the text makes large enough.

Besides its node, a reader tells what the grammar has to know of what was read
(`Restyle.Script.Piece`): whether it can be assigned to, whether it is allowed under an
operator, which names it binds.
-/

namespace Restyle.Script

/-- Which language a text is written in. -/
structure Dialect where
  /-- Types are part of the language. -/
  hasTypes : Bool
  /-- Elements are part of the language. -/
  hasElements : Bool
  /-- The text is a module. -/
  isModule : Bool
  /-- The text only declares what is defined elsewhere. -/
  isDeclaration : Bool
  deriving DecidableEq, Repr

/-- What the place of a piece of a program allows. -/
structure Context where
  dialect : Dialect
  /-- A bound on the length of any list. -/
  limit : Nat
  /-- `in` is an operator. -/
  allowsIn : Bool := true
  /-- `yield` is an operator. -/
  inGenerator : Bool := false
  /-- `await` is an operator. -/
  inAsync : Bool := false
  /-- There is a function to return from. -/
  inFunction : Bool := false
  /-- Only declarations of what is defined elsewhere are expected. -/
  isAmbient : Bool := false
  /-- A conditional type needs parentheses. -/
  noConditionalType : Bool := false
  /-- An arrow function with a result type has to be followed by a colon. -/
  arrowNeedsColon : Bool := false
  /-- The piece is a decorator. -/
  inDecorator : Bool := false

/-- The context inside brackets. -/
def Context.nested (context : Context) : Context :=
  { context with allowsIn := true, arrowNeedsColon := false, inDecorator := false,
                 noConditionalType := false }

/-- The context inside a function. -/
def Context.function (context : Context) (isAsync isGenerator : Bool) : Context :=
  { context.nested with inAsync := isAsync, inGenerator := isGenerator, inFunction := true }

/-- Which logical operators an expression without parentheses around it ends with. -/
inductive Logic where
  /-- Neither of them. -/
  | plain
  /-- `&&` or `||`. -/
  | boolean
  /-- `??`. -/
  | nullish
  deriving DecidableEq, Repr

/-- What was read, and what the grammar has to know of it. -/
structure Piece where
  node : Node
  /-- It can be assigned to by any operator. -/
  isPlace : Bool := false
  /-- It can stand in front of `=`. -/
  isTarget : Bool := false
  /-- It can be an element of a pattern that is assigned to. -/
  isElement : Bool := false
  /-- It is no expression unless it is assigned to. -/
  needsTarget : Bool := false
  /-- It starts with an operator. -/
  isUnary : Bool := false
  logic : Logic := .plain
  /-- A part of it is skipped when something is missing. -/
  isOptional : Bool := false
  /-- The names that it binds or exports. -/
  names : List String := []

/-- A piece of which nothing has to be known but what is inside. -/
def Piece.ofNodes (nodes : List Node) : Piece :=
  { node := .group nodes }

/-- A piece with nothing inside. -/
def Piece.none : Piece := { node := .leaf }

/-- A piece that can be assigned to. -/
def Piece.place (node : Node) : Piece :=
  { node, isPlace := true, isTarget := true, isElement := true }

/-- Several pieces as one. -/
def Piece.gather (pieces : List Piece) : Piece :=
  { node := .group (pieces.map (·.node)), names := pieces.flatMap (·.names) }

/-- The symbols of the grammar. -/
inductive Symbol where
  /-- A statement; `isNested` where no list of statements is expected. -/
  | statement (isNested : Bool)
  /-- Expressions separated by commas. -/
  | expression
  /-- One expression without commas. -/
  | assignment
  /-- Operators that bind more tightly than a level. -/
  | binary (level : Nat)
  | unary
  /-- What can be called or assigned to. -/
  | leftHandSide
  /-- What can be called by `new`: the same, without calls. -/
  | constructor
  /-- A name or a pattern of names to bind. -/
  | binding
  | type
  /-- A type without operators between types. -/
  | unaryType
  /-- An element, up to its last angle bracket. -/
  | element

/-- Reading from a cursor on, which may fail. -/
abbrev Reader := StateT Cursor Option

/-- A reader for every symbol. -/
abbrev Grammar := Context → Symbol → Reader Piece

/-! ### Small readers -/

/-- The cursor. -/
def here : Reader Cursor := get

/-- Steps behind a token. -/
def step : Reader Unit := modify Cursor.next

/-- Goes on only if something holds. -/
def check (holds : Bool) : Reader Unit :=
  if holds then pure () else failure

/-- What a reader would read, without reading it; `false` if it fails. -/
def ahead (reader : Reader Bool) : Reader Bool := fun cursor =>
  match reader cursor with
  | some (found, _) => some (found, cursor)
  | none => some (false, cursor)

/-- What a reader reads, or nothing if it fails. -/
def attempt {α : Type} (reader : Reader α) : Reader (Option α) := fun cursor =>
  match reader cursor with
  | some (found, after) => some (some found, after)
  | none => some (none, cursor)

/-- Steps behind a mark if the token is that mark. -/
def eat (mark : String) : Reader Bool := do
  if (← here).isMark mark then
    step
    pure true
  else pure false

/-- Steps behind a mark, which has to be there. -/
def expect (mark : String) : Reader Unit := do
  check (← eat mark)

/-- Steps behind a mark if the token is that mark and the mark is allowed here. -/
def eatWhere (isAllowed : Bool) (mark : String) : Reader Bool :=
  if isAllowed then eat mark else pure false

/-- Steps behind a word if the token is that word. -/
def eatWord (word : String) : Reader Bool := do
  if (← here).isWord word then
    step
    pure true
  else pure false

/-- Steps behind a word, which has to be there. -/
def expectWord (word : String) : Reader Unit := do
  check (← eatWord word)

/-- Whether the token is a mark. -/
def atMark (mark : String) : Reader Bool := do
  return (← here).isMark mark

/-- Whether the token is a word. -/
def atWord (word : String) : Reader Bool := do
  return (← here).isWord word

/-- Whether the token after this one is as a test asks. -/
def nextIs (p : Cursor → Bool) : Reader Bool := do
  return p (← here).next

/-- Whether a statement may end here without a semicolon. -/
def Cursor.endsStatement (cursor : Cursor) : Bool :=
  cursor.isMark ";" || cursor.isMark "\x7d" || cursor.isAtEnd || cursor.afterLineEnd

/-- The end of a statement: a semicolon, or a place where none is needed. -/
def endOfStatement : Reader Unit := do
  if !(← eat ";") then check (← here).endsStatement

/-- Reads as often as something comes of it, at most `limit` times. -/
def iterate {σ : Type} (next : σ → Reader (Option σ)) : (limit : Nat) → σ → Reader σ
  | 0, _ => failure
  | limit + 1, state => do
    match ← next state with
    | none => pure state
    | some state => iterate next limit state

/-- Items until a reader says that there are no more. -/
def many {α : Type} (limit : Nat) (isDone : Reader Bool) (item : Reader α) : Reader (List α) :=
  iterate (fun items => do
    if ← isDone then pure none
    else return some (items ++ [← item])) limit []

/-- Items separated by commas, up to a closing mark. A comma may stand behind the last
item. -/
def commaItems {α : Type} (limit : Nat) (close : String) (item : Reader α) : Reader (List α) :=
  iterate (fun (items : List α) => do
    if ← atMark close then pure none
    else
      let found ← item
      if !(← eat ",") then check (← atMark close)
      return some (items ++ [found])) limit []

/-- Items separated by commas, up to a closing mark, which is read as well. -/
def commaList {α : Type} (limit : Nat) (close : String) (item : Reader α) : Reader (List α) := do
  let items ← commaItems limit close item
  expect close
  pure items

/-- Items separated by a mark, one at least. -/
def separated {α : Type} (limit : Nat) (mark : String) (item : Reader α) : Reader (List α) := do
  let first ← item
  iterate (fun items => do
    if ← eat mark then return some (items ++ [← item]) else pure none) limit [first]

/-- Words out of a list, each of them as long as what is behind it can be what it is said
of. -/
def modifiers (limit : Nat) (words : List String) (canFollow : Cursor → Bool) :
    Reader (List String) :=
  iterate (fun found => do
    let cursor ← here
    match words.find? cursor.isWord with
    | some word =>
      if canFollow cursor.next then
        step
        return some (found ++ [word])
      else pure none
    | none => pure none) limit []

/-- The node of the string literal that the token is. -/
def stringLiteral : Reader Node := do
  let cursor ← here
  match cursor.kind with
  | .string value =>
    step
    pure (.literal ⟨cursor.start, cursor.stop, value, false⟩)
  | _ => failure

/-- A template, whose holes a reader reads. Unless it is handed to a function, its escapes
have to be sound. -/
def template (limit : Nat) (isTagged : Bool) (hole : Reader Node) : Reader (List Node) := do
  let (nodes, _) ← iterate (fun ((nodes, isDone) : List Node × Bool) => do
    if isDone then pure none
    else
      match (← here).kind with
      | .template isLast isSound =>
        check (isTagged || isSound)
        step
        if isLast then return some (nodes, true)
        else
          let node ← hole
          let cursor ← here
          check (cursor.isMark "\x7d")
          match cursor.asTemplate? with
          | some cursor =>
            set cursor
            return some (nodes ++ [node], false)
          | none => failure
      | _ => failure) limit ([], false)
  pure nodes

/-- Whether the token starts a template. -/
def Cursor.isTemplate (cursor : Cursor) : Bool :=
  match cursor.kind with
  | .template _ _ => true
  | _ => false

/-- Whether the token is a string literal. -/
def Cursor.isString (cursor : Cursor) : Bool :=
  match cursor.kind with
  | .string _ => true
  | _ => false

end Restyle.Script
