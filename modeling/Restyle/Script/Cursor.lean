import Restyle.Script.Token

/-!
# A place in a script

A cursor stands in front of one token of a script. It knows the text from there on, so it
can step behind the token or cut the text at the same place in another way: a slash as a
regular expression, a closing brace as the next piece of a template, an angle bracket alone.
-/

namespace Restyle.Script

/-- A place in a script: in front of a token. -/
structure Cursor where
  /-- The number of characters in front of the token. -/
  start : Nat
  /-- The text from the token on. -/
  text : List Char
  kind : Kind
  /-- The number of characters of the token. -/
  length : Nat
  /-- Whether a line ends between the token and the one in front of it. -/
  afterLineEnd : Bool
  /-- The number of characters in front of the end of the token before. -/
  previousStop : Nat

namespace Cursor

/-- The cursor in front of the first token of a text, `offset` characters being in front of
the text. -/
def ofText (offset : Nat) (text : List Char) : Cursor :=
  let found := trivia text
  let here := text.drop found.length
  let (kind, length) := if found.isBroken then (Kind.broken, 1) else scan here
  { start := offset + found.length, text := here, kind, length,
    afterLineEnd := found.hasLineEnd, previousStop := offset }

/-- The number of characters in front of the end of the token. -/
def stop (cursor : Cursor) : Nat := cursor.start + cursor.length

/-- The text behind the token. -/
def rest (cursor : Cursor) : List Char := cursor.text.drop cursor.length

/-- The cursor in front of the next token. -/
def next (cursor : Cursor) : Cursor :=
  ofText cursor.stop cursor.rest

/-- The cursor in front of the same token, cut differently. -/
def recut (cursor : Cursor) (kind : Kind) (length : Nat) : Cursor :=
  { cursor with kind, length }

/-- Whether the token is a mark. -/
def isMark (cursor : Cursor) (mark : String) : Bool :=
  cursor.kind == .mark mark

/-- The name that the token is, escapes or not. -/
def name? (cursor : Cursor) : Option String :=
  match cursor.kind with
  | .name text _ => some text
  | _ => none

/-- Whether the token is a word of the language, written without escapes. -/
def isWord (cursor : Cursor) (word : String) : Bool :=
  cursor.kind == .name word false

/-- Whether the text is at its end. -/
def isAtEnd (cursor : Cursor) : Bool :=
  cursor.kind == .endOfText

/-- A slash cut as a regular expression. -/
def asPattern? (cursor : Cursor) : Option Cursor := do
  let n ← patternLength? false 0 (cursor.text.drop 1)
  let flags ← flagsLength? (cursor.text.drop (1 + n))
  pure (cursor.recut .regularExpression (1 + n + flags))

/-- A closing brace cut as the next piece of a template. -/
def asTemplate? (cursor : Cursor) : Option Cursor := do
  let (isLast, isSound, n) ← readTemplate? 0 (cursor.text.drop 1)
  pure (cursor.recut (.template isLast isSound) (1 + n))

/-- An opening angle bracket cut off from the operator that it starts. -/
def asOpeningAngle (cursor : Cursor) : Cursor :=
  match cursor.kind with
  | .mark mark => if mark.toList.head? = some '<' then cursor.recut (.mark "<") 1 else cursor
  | _ => cursor

/-- A closing angle bracket put together with the operator that it starts. -/
def asClosingOperator (cursor : Cursor) : Cursor :=
  if cursor.isMark ">" then
    match markIn? closingOperators cursor.text with
    | some mark => cursor.recut (.mark mark) mark.length
    | none => cursor
  else cursor

end Cursor

end Restyle.Script
