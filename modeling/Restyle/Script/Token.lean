import Restyle.Script.Escape
import Restyle.Script.Letters
import Restyle.Text.Search

/-!
# Tokens of a script

How the text of a script is cut into tokens. What a slash, an angle bracket or a closing
brace starts depends on where it stands – a division or a regular expression, a comparison
or a list of types, the end of a block or the rest of a template – so a token is only ever
cut at a place where the grammar asks for one, and `Restyle.Script.Cursor` can cut again
from the same place in another way.

As with style sheets, a scanner tells how many characters belong to a token and what it is;
the cursor does the cutting.
-/

namespace Restyle.Script

/-- What a token is. -/
inductive Kind where
  | endOfText
  /-- An identifier or a word of the language, and whether it was written with escapes. -/
  | name (text : String) (hasEscape : Bool)
  /-- A name behind `#`. -/
  | privateName
  /-- A string literal, by the text that it stands for. -/
  | string (value : String)
  | number
  /-- A piece of a template, whether it is the last one, and whether its escapes are
  sound. -/
  | template (isLast isSound : Bool)
  | regularExpression
  /-- A mark. -/
  | mark (text : String)
  /-- What is no token. -/
  | broken
  deriving DecidableEq, Repr

/-- White space between tokens, line ends apart. -/
def isSpacing (c : Char) : Bool :=
  c == ' ' || c == '\t' || c == '\x0b' || c == '\x0c' || c == '\u00a0' || c == '\ufeff' ||
    c == '\u0085' || c == '\u1680' || ('\u2000' ≤ c && c ≤ '\u200b') || c == '\u202f' ||
    c == '\u205f' || c == '\u3000'

/-! ### What is between tokens -/

/-- White space and comments in front of a token. -/
structure Trivia where
  /-- The number of characters. -/
  length : Nat := 0
  /-- Whether a line ends in them. -/
  hasLineEnd : Bool := false
  /-- Whether the last comment is not closed. -/
  isBroken : Bool := false

/-- The number of characters of a comment behind `/*`, with its closing mark, and whether a
line ends in it; nothing if it is not closed. -/
def blockCommentLength? : List Char → Option (Nat × Bool)
  | '*' :: '/' :: _ => some (2, false)
  | c :: rest => (blockCommentLength? rest).map fun (n, hasLineEnd) =>
      (n + 1, hasLineEnd || isLineEnd c)
  | [] => none

/-- White space and comments in front of a text, `skip` characters of a comment being
done. -/
def triviaFrom : (skip : Nat) → (found : Trivia) → List Char → Trivia
  | _, found, [] => found
  | skip + 1, found, _ :: rest =>
    triviaFrom skip { found with length := found.length + 1 } rest
  | 0, found, c :: rest =>
    if isSpacing c then triviaFrom 0 { found with length := found.length + 1 } rest
    else if isLineEnd c then
      triviaFrom 0 { found with length := found.length + 1, hasLineEnd := true } rest
    else if c = '/' then
      match rest with
      | '/' :: more =>
        triviaFrom (1 + (more.takeWhile (!isLineEnd ·)).length)
          { found with length := found.length + 1 } rest
      | '*' :: more =>
        match blockCommentLength? more with
        | some (n, hasLineEnd) =>
          triviaFrom (1 + n)
            { found with
              length := found.length + 1, hasLineEnd := found.hasLineEnd || hasLineEnd } rest
        | none => { found with isBroken := true }
      | _ => found
    else found

/-- White space and comments in front of a text. -/
def trivia (cs : List Char) : Trivia :=
  triviaFrom 0 {} cs

/-! ### Names -/

/-- The characters of the identifier in front, and the number of characters in which they
are written; `isFirst` at its start. An escape that is no letter spoils it. -/
def readName? : (skip : Nat) → (isFirst : Bool) → List Char → Option (List Char × Nat)
  | _, _, [] => some ([], 0)
  | skip + 1, isFirst, _ :: rest =>
    (readName? skip isFirst rest).map fun (name, n) => (name, n + 1)
  | 0, isFirst, c :: rest =>
    let fits := if isFirst then isIdentifierStart else isIdentifierPart
    if fits c then (readName? 0 false rest).map fun (name, n) => (c :: name, n + 1)
    else if c = '\\' then
      match rest with
      | 'u' :: more =>
        match readUnicode? more with
        | some ([d], n) =>
          if fits d then (readName? (n + 1) false rest).map fun (name, n) => (d :: name, n + 1)
          else none
        | _ => none
      | _ => none
    else some ([], 0)

/-! ### Numbers -/

/-- The length of a run of digits with single separators between them; nothing if the
separators stand elsewhere. -/
def digitsLength? (isDigit : Char → Bool) (cs : List Char) : Option Nat :=
  let run := cs.takeWhile fun c => isDigit c || c == '_'
  if run.head? = some '_' ∨ run.getLast? = some '_' ∨ Text.contains ['_', '_'] run then none
  else some run.length

/-- The length of an integer in another base, behind its two first characters. -/
def basedLength? (isDigit : Char → Bool) (cs : List Char) : Option Nat := do
  let n ← digitsLength? isDigit cs
  if n = 0 then none
  pure (if (cs.drop n).head? = some 'n' then n + 1 else n)

/-- The length of an exponent, if there is one. -/
def exponentLength? : List Char → Option Nat
  | e :: rest =>
    if e = 'e' ∨ e = 'E' then do
      let sign := match rest with
        | s :: _ => if s = '+' ∨ s = '-' then 1 else 0
        | [] => 0
      let n ← digitsLength? Char.isDigit (rest.drop sign)
      if n = 0 then none
      pure (1 + sign + n)
    else some 0
  | [] => some 0

/-- The length of a decimal number: digits, perhaps a point with digits, perhaps an
exponent, or an integer with the suffix `n`. -/
def decimalLength? (cs : List Char) : Option Nat := do
  let whole ← digitsLength? Char.isDigit cs
  match cs.drop whole with
  | 'n' :: _ => if whole = 0 then none else pure (whole + 1)
  | rest => do
    let fraction ← match rest with
      | '.' :: more => (digitsLength? Char.isDigit more).map (1 + ·)
      | _ => some 0
    let exponent ← exponentLength? (rest.drop fraction)
    pure (whole + fraction + exponent)

/-- The length of a number that starts with `0` and another digit: an old octal number, or a
decimal one if a digit is no octal digit. -/
def zeroLedLength? (cs : List Char) : Option Nat :=
  let run := (cs.takeWhile Char.isDigit).length
  if (cs.take run).all isOctalDigit then some run
  else
    match cs.drop run with
    | '.' :: more => do
      let n := 1 + (more.takeWhile Char.isDigit).length
      let exponent ← exponentLength? ((cs.drop run).drop n)
      pure (run + n + exponent)
    | rest => (exponentLength? rest).map (run + ·)

/-- The length of the number in front. A number ends where no identifier goes on. -/
def numberLength? (cs : List Char) : Option Nat := do
  let n ← match cs with
    | '0' :: c :: rest =>
      if c = 'x' ∨ c = 'X' then
        (basedLength? (fun d => (hexValue? d).isSome) rest).map (2 + ·)
      else if c = 'o' ∨ c = 'O' then (basedLength? isOctalDigit rest).map (2 + ·)
      else if c = 'b' ∨ c = 'B' then
        (basedLength? (fun d => d == '0' || d == '1') rest).map (2 + ·)
      else if c.isDigit then zeroLedLength? cs
      else if c = '_' then none
      else decimalLength? cs
    | _ => decimalLength? cs
  match cs.drop n with
  | c :: _ => if isIdentifierStart c || c.isDigit || c == '\\' then none else pure n
  | [] => pure n

/-! ### Quoted text -/

/-- The number of characters between the opening and the closing quote of a string, `skip`
of them being part of an escape; nothing if the string is not closed on its line. -/
def stringBodyLength? (quote : Char) : (skip : Nat) → List Char → Option Nat
  | _, [] => none
  | skip + 1, _ :: rest => (stringBodyLength? quote skip rest).map (· + 1)
  | 0, c :: rest =>
    if c = quote then some 0
    else if c = '\n' ∨ c = '\r' then none
    else if c = '\\' then
      let skip := if ['\r', '\n'].isPrefixOf rest then 2 else 1
      (stringBodyLength? quote skip rest).map (· + 1)
    else (stringBodyLength? quote 0 rest).map (· + 1)

/-- Whether an escape is sound in a template, where octal numbers are not. -/
def isTemplateEscape (cs : List Char) : Bool :=
  match cs with
  | '0' :: rest => match rest with
    | c :: _ => !c.isDigit
    | [] => true
  | c :: _ => !c.isDigit && (readEscape? cs).isSome
  | [] => false

/-- A piece of a template from where it starts: whether it is the last one, whether its
escapes are sound, and its number of characters with the mark that ends it. -/
def readTemplate? : (skip : Nat) → List Char → Option (Bool × Bool × Nat)
  | _, [] => none
  | skip + 1, _ :: rest =>
    (readTemplate? skip rest).map fun (isLast, isSound, n) => (isLast, isSound, n + 1)
  | 0, c :: rest =>
    if c = '\x60' then some (true, true, 1)
    else if c = '$' ∧ rest.head? = some '\x7b' then some (false, true, 2)
    else if c = '\\' then
      (readTemplate? 1 rest).map fun (isLast, isSound, n) =>
        (isLast, isSound && isTemplateEscape rest, n + 1)
    else (readTemplate? 0 rest).map fun (isLast, isSound, n) => (isLast, isSound, n + 1)

/-- The number of characters of a regular expression behind its first slash, with the
second one. -/
def patternLength? : (inClass : Bool) → (skip : Nat) → List Char → Option Nat
  | _, _, [] => none
  | inClass, skip + 1, c :: rest =>
    if isLineEnd c then none else (patternLength? inClass skip rest).map (· + 1)
  | inClass, 0, c :: rest =>
    if isLineEnd c then none
    else if c = '/' ∧ !inClass then some 1
    else
      let inClass := if c = '[' then true else if c = ']' then false else inClass
      (patternLength? inClass (if c = '\\' then 1 else 0) rest).map (· + 1)

/-- The length of the flags of a regular expression, each of them known and there once. -/
def flagsLength? (cs : List Char) : Option Nat :=
  let flags := cs.takeWhile isIdentifierPart
  if flags.all (['g', 'i', 'm', 's', 'u', 'y', 'd', 'v'].contains ·) &&
      flags.eraseDups.length == flags.length then some flags.length
  else none

/-! ### Marks -/

/-- The marks, longer ones before those that they start with. A closing angle bracket is a
mark of its own wherever it stands; the operators that start with one are put together
where an operator is asked for. -/
def marks : List String :=
  ["...", "===", "!==", "**=", "<<=", "&&=", "||=", "??=",
    "=>", "==", "!=", "**", "++", "--", "+=", "-=", "*=", "/=", "%=", "<<", "<=", "&&", "||",
    "??", "?.", "&=", "|=", "^=",
    "\x7b", "\x7d", "(", ")", "[", "]", ";", ",", "<", ">", "+", "-", "*", "/", "%", "&", "|",
    "^", "!", "~", "?", ":", "=", ".", "@"]

/-- The operators that start with a closing angle bracket, the longest first. -/
def closingOperators : List String :=
  [">>>=", ">>>", ">>=", ">>", ">=", ">"]

/-- The first of some marks that is in front of a text. -/
def markIn? (marks : List String) (cs : List Char) : Option String :=
  marks.find? fun mark => mark.toList.isPrefixOf cs

/-! ### One token -/

/-- The kind and the length of the token in front of a text that starts with none of the
characters between tokens. -/
def scan (cs : List Char) : Kind × Nat :=
  match cs with
  | [] => (.endOfText, 0)
  | c :: rest =>
    if isIdentifierStart c || c == '\\' then
      match readName? 0 true cs with
      | some (name, n) =>
        if n = 0 then (.broken, 1)
        else (.name (String.ofList name) ((cs.take n).contains '\\'), n)
      | none => (.broken, 1)
    else if c.isDigit || (c == '.' && (rest.head?.map Char.isDigit).getD false) then
      match numberLength? cs with
      | some n => (.number, n)
      | none => (.broken, 1)
    else if c = '"' ∨ c = '\'' then
      match stringBodyLength? c 0 rest with
      | some n =>
        match decode? (rest.take n) with
        | some value => (.string (String.ofList value), n + 2)
        | none => (.broken, 1)
      | none => (.broken, 1)
    else if c = '\x60' then
      match readTemplate? 0 rest with
      | some (isLast, isSound, n) => (.template isLast isSound, n + 1)
      | none => (.broken, 1)
    else if c = '#' then
      match readName? 0 true rest with
      | some (_, n) => if n = 0 then (.broken, 1) else (.privateName, n + 1)
      | none => (.broken, 1)
    else
      match markIn? marks cs with
      | some mark =>
        if mark = "?." ∧ ((cs.drop 2).head?.map Char.isDigit).getD false then (.mark "?", 1)
        else (.mark mark, mark.length)
      | none => (.broken, 1)

end Restyle.Script
