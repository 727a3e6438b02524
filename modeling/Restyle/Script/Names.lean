import Restyle.Script.Grammar

/-!
# Names

Which words of a script are names. The reserved words never are, except behind a point and
as the name of a property; `await` and `yield` are names where they are no operators.
-/

namespace Restyle.Script

/-- The words that are never the name of a variable. -/
def reservedWords : List String :=
  ["break", "case", "catch", "class", "const", "continue", "debugger", "default", "delete", "do",
    "else", "enum", "export", "extends", "false", "finally", "for", "function", "if", "import",
    "in", "instanceof", "new", "null", "return", "super", "switch", "this", "throw", "true",
    "try", "typeof", "var", "void", "while", "with"]

/-- Whether a word can be the name of a variable somewhere. -/
def isUnreserved (word : String) : Bool :=
  !reservedWords.contains word

/-- Whether the token can be the name of a variable somewhere. -/
def Cursor.isIdentifier (cursor : Cursor) : Bool :=
  match cursor.kind with
  | .name text _ => isUnreserved text
  | _ => false

/-- Whether the token can be the name of a variable here. -/
def Cursor.isIdentifierIn (cursor : Cursor) (context : Context) : Bool :=
  match cursor.kind with
  | .name text _ =>
    isUnreserved text && !(text == "await" && context.inAsync) &&
      !(text == "yield" && context.inGenerator)
  | _ => false

/-- The name of a variable. -/
def identifier (context : Context) : Reader String := do
  let cursor ← here
  check (cursor.isIdentifierIn context)
  step
  pure (cursor.name?.getD "")

/-- Any word or name. -/
def anyName : Reader String := do
  match (← here).name? with
  | some text =>
    step
    pure text
  | none => failure

/-- Whether the token is any word or name. -/
def Cursor.isName (cursor : Cursor) : Bool :=
  cursor.name?.isSome

/-- Whether the token can be the name of a property without brackets. -/
def Cursor.isPlainKey (cursor : Cursor) : Bool :=
  match cursor.kind with
  | .name _ _ => true
  | .string _ => true
  | .number => true
  | .privateName => true
  | _ => false

/-- The name of a property: a word, a string, a number, an expression in brackets, or, in a
class, a private name. -/
def propertyKey (grammar : Grammar) (context : Context) (allowsPrivate : Bool) :
    Reader (List Node) := do
  let cursor ← here
  match cursor.kind with
  | .name _ _ => step; pure []
  | .string _ => return [← stringLiteral]
  | .number => step; pure []
  | .privateName => check allowsPrivate; step; pure []
  | .mark "[" =>
    step
    let key ← grammar context.nested .assignment
    check !key.needsTarget
    expect "]"
    pure [key.node]
  | _ => failure

/-- A name of an imported or exported thing: a word or a string. -/
def exportName : Reader (List Node × Option String) := do
  let cursor ← here
  match cursor.kind with
  | .name text _ => step; pure ([], some text)
  | .string value => return ([← stringLiteral], some value)
  | _ => failure

/-- An expression that is used for its value. -/
def value (grammar : Grammar) (context : Context) (symbol : Symbol) : Reader Node := do
  let piece ← grammar context symbol
  check !piece.needsTarget
  pure piece.node

end Restyle.Script
