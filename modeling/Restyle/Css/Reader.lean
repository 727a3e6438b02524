import Restyle.Css.Location
import Restyle.Css.Tree
import Restyle.Text.Blank

/-!
# Reading style sheets

A style sheet is read by a machine that takes one token at a time
(`Restyle.Css.Reader.step`). Its state is the tree built so far – the container that is
open, and the containers around it – together with the statement that has begun, if any.

A statement is a run of tokens. It ends at a semicolon, at the end of the container, or at
the opening brace of its own body; brackets and functions inside it are stepped over whole,
whatever they hold, up to their own closing mark or the end of the text. What a statement
is shows when it ends: an at-rule if it starts with an at-keyword, a rule if a body follows,
a declaration if it holds a colon outside brackets – and otherwise it is nothing
(`Restyle.Css.Problem.unknownWord`).

Every character that was read is kept in some slot of the tree, so an unmodified tree
prints the very text it was read from.
-/

namespace Restyle.Css

open Restyle.Text (trimStart trimEnd dropEndWhile)

/-! ### Errors -/

/-- What can be wrong with a style sheet. -/
inductive Problem where
  | unclosedBlock
  | unclosedString
  | unclosedComment
  /-- A closing brace outside any block. -/
  | unexpectedClose
  /-- A statement that is neither a declaration nor a rule. -/
  | unknownWord
  /-- Something else than declarations where only these are allowed. -/
  | notDeclarations
  deriving DecidableEq, Repr

/-- What a problem is called. -/
def Problem.text : Problem → String
  | unclosedBlock => "Unclosed block"
  | unclosedString => "Unclosed string"
  | unclosedComment => "Unclosed comment"
  | unexpectedClose => "Unexpected \x7d"
  | unknownWord => "Unknown word"
  | notDeclarations => "Expected only declarations"

/-- A problem, and where it is. -/
structure ReadError where
  problem : Problem
  location : Location
  deriving DecidableEq, Repr

/-- The message of an error. -/
def ReadError.message (error : ReadError) : String :=
  error.problem.text ++ " at line " ++ toString error.location.line ++
    ", column " ++ toString error.location.column

/-- A problem, and the number of characters in front of it. -/
structure Fault where
  problem : Problem
  offset : Nat
  deriving DecidableEq, Repr

namespace Reader

/-! ### The state of the reader -/

/-- A statement that has begun. -/
structure Statement where
  /-- The number of characters in front of it. -/
  start : Nat
  /-- Its text, up to the last token that is not white space. -/
  text : List Char := []
  /-- The white space behind that. -/
  gap : List Char := []
  /-- The length of the at-keyword it starts with. -/
  keyword : Option Nat := none
  /-- The length of what stands in front of its first colon. -/
  colon : Option Nat := none
  /-- The marks that close the brackets open in it, the innermost first. -/
  brackets : List Kind := []

/-- What a body belongs to. -/
inductive Heading where
  | rule (selector : String)
  | atRule (name afterName params : String)

/-- A body that was opened. -/
structure Opening where
  heading : Heading
  before : String
  between : String
  /-- The number of characters in front of its opening brace. -/
  offset : Nat

/-- A container that is being filled. -/
structure Frame where
  nodes : List Node := []
  /-- Whether its last statement ended with a semicolon. -/
  semicolon : Bool := true

/-- The state of the reader. -/
structure State where
  /-- The number of characters read. -/
  offset : Nat := 0
  /-- The innermost open container. -/
  frame : Frame := {}
  /-- The bodies that are open, the innermost first, each with the container around it. -/
  outer : List (Opening × Frame) := []
  /-- White space and semicolons behind the last node. -/
  before : List Char := []
  /-- The statement that has begun. -/
  statement : Option Statement := none

/-- One more node in the open container. -/
def State.push (state : State) (node : Node) : State :=
  { state with frame := { state.frame with nodes := state.frame.nodes ++ [node] }, before := [] }

/-! ### Statements -/

/-- The name, the white space and the parameters of an at-rule whose keyword, with its `@`,
has a length. -/
def splitKeyword (text : List Char) (length : Nat) : String × String × String :=
  let rest := text.drop length
  let params := trimStart rest
  (String.ofList ((text.take length).drop 1),
    String.ofList (rest.take (rest.length - params.length)), String.ofList params)

/-- The declaration that a text with a colon makes, `trailing` being the white space in
front of its semicolon. -/
def declarationOf (before text trailing : List Char) (colon : Nat) : Node :=
  let property := trimEnd (text.take colon)
  let value := trimStart (text.drop (colon + 1))
  let between := (text.take (text.length - value.length)).drop property.length
  .declaration (String.ofList property) (String.ofList value)
    { before := some (String.ofList before), between := some (String.ofList between),
      after := some (String.ofList trailing) }

/-- The node that a finished statement without a body makes. -/
def nodeOf (before : List Char) (statement : Statement) (trailing : List Char) :
    Except Fault Node :=
  match statement.keyword with
  | some length =>
    let (name, afterName, params) := splitKeyword statement.text length
    .ok (.statement name params
      { before := some (String.ofList before), afterName := some afterName,
        between := some (String.ofList trailing) })
  | none =>
    match statement.colon with
    | some colon => .ok (declarationOf before statement.text trailing colon)
    | none => .error ⟨.unknownWord, statement.start⟩

/-- Finishes the statement that has begun, if any, where no semicolon ends it: the white
space behind it goes in front of whatever comes next. -/
def State.settle (state : State) : Except Fault State :=
  match state.statement with
  | none => .ok state
  | some statement => do
    let node ← nodeOf state.before statement []
    let next := state.push node
    .ok { next with
      frame := { next.frame with semicolon := false }
      before := statement.gap
      statement := none }

/-- Finishes a statement at a semicolon. -/
def State.terminate (state : State) (statement : Statement) : Except Fault State := do
  let node ← nodeOf state.before statement statement.gap
  let next := state.push node
  .ok { next with frame := { next.frame with semicolon := true }, statement := none }

/-- Opens the body of a statement. -/
def State.openBody (state : State) (statement : Statement) : State :=
  let heading := match statement.keyword with
    | some length =>
      let (name, afterName, params) := splitKeyword statement.text length
      Heading.atRule name afterName params
    | none => .rule (String.ofList statement.text)
  let opening : Opening :=
    { heading, before := String.ofList state.before, between := String.ofList statement.gap,
      offset := state.offset }
  { state with
    frame := {}, outer := (opening, state.frame) :: state.outer, before := [],
    statement := none }

/-- The node that a body makes when it is closed. -/
def Opening.close (opening : Opening) (frame : Frame) (after : List Char) : Node :=
  let layout : Layout :=
    { before := some opening.before, between := some opening.between,
      after := some (String.ofList after), semicolon := some frame.semicolon }
  match opening.heading with
  | .rule selector => .rule selector frame.nodes layout
  | .atRule name afterName params =>
    .block name params frame.nodes { layout with afterName := some afterName }

/-- Closes the open body, which there has to be. -/
def State.closeBody (state : State) : Except Fault State :=
  match state.outer with
  | [] => .error ⟨.unexpectedClose, state.offset⟩
  | (opening, frame) :: outer =>
    let closed : State := { state with frame, outer, before := [] }
    .ok (closed.push (opening.close state.frame state.before))

/-! ### Tokens -/

/-- The mark that closes what a token opens inside a statement. -/
def closerOf? : Kind → Option Kind
  | .function => some .closeRound
  | .openRound => some .closeRound
  | .openSquare => some .closeSquare
  | .openCurly => some .closeCurly
  | _ => none

/-- A token inside the brackets of a statement: part of its text, whatever it is. -/
def Statement.addInside (statement : Statement) (closer : Kind) (outer : List Kind)
    (token : Token) : Statement :=
  { statement with
    text := statement.text ++ token.text
    brackets :=
      if token.kind = closer then outer
      else match closerOf? token.kind with
        | some inner => inner :: closer :: outer
        | none => closer :: outer }

/-- A token at the top level of a statement that does not end it. -/
def Statement.add (statement : Statement) (token : Token) : Statement :=
  let text := statement.text ++ statement.gap
  { statement with
    text := text ++ token.text
    gap := []
    keyword :=
      if token.kind = .atKeyword ∧ text.isEmpty then some token.text.length
      else statement.keyword
    colon :=
      if token.kind = .colon ∧ statement.colon.isNone then some text.length
      else statement.colon
    brackets := (closerOf? token.kind).toList }

/-- The comment that a token is. -/
def commentOf (before : List Char) (token : Token) : Node :=
  .comment (String.ofList ((token.text.drop 2).take (token.text.length - 4)))
    { before := some (String.ofList before) }

/-- What a token does between two statements. -/
def State.between (state : State) (token : Token) : Except Fault State :=
  match token.kind with
  | .space | .semicolon => .ok { state with before := state.before ++ token.text }
  | .closeCurly => state.closeBody
  | .comment => .ok (state.push (commentOf state.before token))
  | .openCurly => .ok (state.openBody { start := state.offset })
  | _ => .ok { state with statement := some (Statement.add { start := state.offset } token) }

/-- What a token does inside a statement. -/
def State.inside (state : State) (statement : Statement) (token : Token) :
    Except Fault State :=
  match statement.brackets with
  | closer :: outer =>
    .ok { state with statement := some (statement.addInside closer outer token) }
  | [] =>
    match token.kind with
    | .space =>
      .ok { state with
        statement := some { statement with gap := statement.gap ++ token.text } }
    | .semicolon => state.terminate statement
    | .closeCurly => do (← state.settle).closeBody
    | .openCurly => .ok (state.openBody statement)
    | _ => .ok { state with statement := some (statement.add token) }

/-- Reads one token. Strings and comments have to be closed wherever they stand. -/
def step (state : State) (token : Token) : Except Fault State := do
  if token.isUnclosedString then throw ⟨.unclosedString, state.offset⟩
  if token.isUnclosedComment then throw ⟨.unclosedComment, state.offset⟩
  let next ← match state.statement with
    | none => state.between token
    | some statement => state.inside statement token
  pure { next with offset := state.offset + token.text.length }

/-- The style sheet that has been read when the text is at its end. -/
def finish (state : State) : Except Fault Sheet := do
  let state ← state.settle
  match state.outer with
  | (opening, _) :: _ => throw ⟨.unclosedBlock, opening.offset⟩
  | [] => pure ⟨state.frame.nodes, String.ofList state.before, state.frame.semicolon⟩

/-- The style sheet that a list of tokens makes. -/
def ofTokens (tokens : List Token) : Except Fault Sheet := do
  finish (← tokens.foldlM step {})

end Reader

/-- The style sheet that a text writes. -/
def Sheet.ofString (text : String) : Except ReadError Sheet :=
  match Reader.ofTokens (tokens text.toList) with
  | .ok sheet => .ok sheet
  | .error fault => .error ⟨fault.problem, Location.ofOffset text.toList fault.offset⟩

/-- The declarations among nodes that are declarations and comments; nothing if there is
anything else. -/
def declarationsOf? : List Node → Option (List (String × String))
  | [] => some []
  | .declaration property value _ :: rest => (declarationsOf? rest).map ((property, value) :: ·)
  | .comment _ _ :: rest => declarationsOf? rest
  | _ :: _ => none

/-- The declarations of a text such as `color: red; padding: 0`, comments left out. -/
def declarationsOfString (text : String) : Except ReadError (List (String × String)) := do
  let sheet ← Sheet.ofString text
  match declarationsOf? sheet.nodes with
  | some declarations => pure declarations
  | none => throw ⟨.notDeclarations, {}⟩

end Restyle.Css
