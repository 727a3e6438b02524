import Restyle.Script.Markup
import Restyle.Script.Operators
import Restyle.Script.Statements

/-!
# Programs

The grammar as a whole. Every symbol has its reader, and the readers are put together by a
bound on how deep they may call each other: `Restyle.Script.grammarWithin` refuses
everything at depth zero, and reads by the grammar of one depth less above it. Each call of
a reader by another one either reads a token first or goes to a symbol that binds more
tightly, of which there are less than sixteen, so a bound in proportion to the length of a
text is never reached by it.
-/

namespace Restyle.Script

/-- The reader of every symbol, by readers for what is inside. -/
def production (grammar : Grammar) (context : Context) : Symbol → Reader Piece
  | .statement isNested => statement grammar context isNested
  | .expression => expression grammar context
  | .assignment => assignment grammar context
  | .binary level => binary grammar context level
  | .unary => unary grammar context
  | .leftHandSide => leftHandSide grammar context
  | .constructor => constructor grammar context
  | .binding => binding grammar context
  | .type => type grammar context
  | .unaryType => unaryType grammar context
  | .element => element grammar context

/-- The grammar down to a depth. -/
def grammarWithin : (depth : Nat) → Grammar
  | 0 => fun _ _ => failure
  | depth + 1 => fun context symbol => production (grammarWithin depth) context symbol

/-- The number of characters of the line that tells a system how to run a script. -/
def hashbangLength (text : List Char) : Nat :=
  match text with
  | '#' :: '!' :: rest => 2 + (rest.takeWhile (!isLineEnd ·)).length
  | _ => 0

/-- The context of the statements of a text. -/
def Context.ofText (dialect : Dialect) (text : List Char) : Context :=
  { dialect, limit := text.length + 2, inAsync := dialect.isModule,
    isAmbient := dialect.isDeclaration }

/-- The program that a text is, as the nodes of its statements. Nothing may be exported
twice under one name, unless types are part of the language, where a name may stand for a
type and for something else. -/
def program? (dialect : Dialect) (text : List Char) : Option (List Node) := do
  let context := Context.ofText dialect text
  let grammar := grammarWithin (16 * (text.length + 16))
  let start := hashbangLength text
  let statements : Reader (List Piece) :=
    many context.limit (do return (← here).isAtEnd) (grammar context (.statement false))
  let (pieces, _) ← statements (Cursor.ofText start (text.drop start))
  let names := pieces.flatMap (·.names)
  if !dialect.hasTypes && names.eraseDups.length != names.length then none
  else some (pieces.map (·.node))

end Restyle.Script
