/-!
# Tokens of a style sheet

The tokens are those of CSS Syntax 3. A token is a kind and the exact text it was cut
from, so that the texts of all tokens, one after the other, are the style sheet again
(`Restyle.Css.text_tokens`). That this holds costs nothing: a scanner does not hand over
what it read, it only says *how many* characters belong to the token
(`Restyle.Css.scan`), and the text is cut there.

A style sheet that ends early is cut into tokens all the same: a comment, a string or a
`url(` that is never closed reaches to the end of the text. Whether the closing mark is
there is asked of the token's own text (`Restyle.Css.Token.isUnclosedString`,
`Restyle.Css.Token.isUnclosedComment`).
-/

namespace Restyle.Css

/-! ### Characters -/

/-- The white space between tokens. -/
def isSpace (c : Char) : Bool :=
  c == ' ' || c == '\t' || c == '\n' || c == '\r' || c == '\x0c'

/-- The characters that end a line. -/
def isNewline (c : Char) : Bool :=
  c == '\n' || c == '\r' || c == '\x0c'

/-- The characters of hexadecimal numbers. -/
def isHexDigit (c : Char) : Bool :=
  c.isDigit || ('a' ≤ c && c ≤ 'f') || ('A' ≤ c && c ≤ 'F')

/-- The characters that a name may start with, escapes and hyphens apart. -/
def isNameStart (c : Char) : Bool :=
  c.isAlpha || c == '_' || c == '\x00' || 0x80 ≤ c.toNat

/-- The characters that a name may go on with, escapes apart. -/
def isNameChar (c : Char) : Bool :=
  isNameStart c || c.isDigit || c == '-'

/-- Characters that cannot be printed; an address without quotes cannot hold them. -/
def isUnprintable (c : Char) : Bool :=
  let n := c.toNat
  (0x1 ≤ n && n ≤ 0x8) || n == 0xB || (0xE ≤ n && n ≤ 0x1F) || n == 0x7F

/-! ### Kinds of tokens -/

/-- What a token is, as far as reading a style sheet or a colour depends on it. -/
inductive Kind where
  | space
  | comment
  | semicolon
  | colon
  | comma
  | openCurly
  | closeCurly
  | openRound
  | closeRound
  | openSquare
  | closeSquare
  /-- A name behind `@`. -/
  | atKeyword
  /-- A name with the round bracket that opens its arguments. -/
  | function
  | name
  /-- A name, or what could go on with one, behind `#`. -/
  | hash
  | number
  | percentage
  /-- A number with a unit. -/
  | dimension
  | string
  /-- A string that an unescaped line end cuts off. -/
  | brokenString
  /-- An address without quotes, from `url(` to its closing bracket. -/
  | address
  /-- An address that holds what it cannot hold. -/
  | brokenAddress
  /-- Any other mark. -/
  | other
  deriving DecidableEq, Repr

/-- A token: its kind and its text. -/
structure Token where
  kind : Kind
  text : List Char
  deriving DecidableEq, Repr

/-! ### Lengths -/

/-- The length of a line end: a carriage return and the line feed behind it are one. -/
def newlineLength : List Char → Nat
  | '\r' :: '\n' :: _ => 2
  | c :: _ => if isNewline c then 1 else 0
  | [] => 0

/-- The length of one white space at the end of an escape. -/
def escapeEndLength : List Char → Nat
  | c :: rest => if c = ' ' ∨ c = '\t' then 1 else newlineLength (c :: rest)
  | [] => 0

/-- The length of an escape behind its backslash: up to six hexadecimal digits with one
white space, or any one character. -/
def escapeLength (cs : List Char) : Nat :=
  let digits := ((cs.take 6).takeWhile isHexDigit).length
  if digits = 0 then min cs.length 1
  else digits + escapeEndLength (cs.drop digits)

/-- The length of the name in front, `skip` of its characters being part of an escape. -/
def nameLength : (skip : Nat) → List Char → Nat
  | _, [] => 0
  | skip + 1, _ :: rest => 1 + nameLength skip rest
  | 0, c :: rest =>
    if isNameChar c then 1 + nameLength 0 rest
    else if c = '\\' ∧ newlineLength rest = 0 then 1 + nameLength (escapeLength rest) rest
    else 0

/-- Whether a name starts here. -/
def startsName : List Char → Bool
  | '-' :: c :: _ => isNameStart c || c == '-' || c == '\\'
  | '\\' :: rest => newlineLength rest == 0
  | c :: _ => isNameStart c
  | [] => false

/-- The kind and the length of a string behind its opening quote, `skip` of its characters
being part of an escape. -/
def stringLength (quote : Char) : (skip : Nat) → List Char → Kind × Nat
  | _, [] => (.string, 0)
  | skip + 1, _ :: rest => let (kind, n) := stringLength quote skip rest; (kind, n + 1)
  | 0, c :: rest =>
    if c = quote then (.string, 1)
    else if isNewline c then (.brokenString, 0)
    else
      let skip := if c = '\\' then
          (if newlineLength rest = 0 then escapeLength rest else newlineLength rest) else 0
      let (kind, n) := stringLength quote skip rest
      (kind, n + 1)

/-- The length of a comment behind its opening mark, up to and with the closing one. -/
def commentLength : List Char → Nat
  | '*' :: '/' :: _ => 2
  | _ :: rest => 1 + commentLength rest
  | [] => 0

/-- The length of what is left of a broken address: up to a closing bracket that no
backslash precedes. -/
def brokenAddressLength : (skip : Nat) → List Char → Nat
  | _, [] => 0
  | skip + 1, _ :: rest => 1 + brokenAddressLength skip rest
  | 0, c :: rest =>
    if c = ')' then 1
    else if c = '\\' ∧ (rest.head? = some ')' ∨ rest.head? = some '\\') then
      1 + brokenAddressLength 1 rest
    else 1 + brokenAddressLength 0 rest

/-- The kind and the length of an address from its first printable character on. -/
def addressLength : (skip : Nat) → List Char → Kind × Nat
  | _, [] => (.address, 0)
  | skip + 1, _ :: rest => let (kind, n) := addressLength skip rest; (kind, n + 1)
  | 0, c :: rest =>
    if isSpace c then
      let spaces := (rest.takeWhile isSpace).length
      match rest.dropWhile isSpace with
      | [] => (.address, 1 + spaces)
      | ')' :: _ => (.address, 1 + spaces + 1)
      | _ :: more => (.brokenAddress, 1 + spaces + 1 + brokenAddressLength 0 more)
    else if c = ')' then (.address, 1)
    else if isUnprintable c || c == '"' || c == '\'' || c == '(' then
      (.brokenAddress, 1 + brokenAddressLength 0 rest)
    else if c = '\\' then
      if newlineLength rest = 0 then
        let (kind, n) := addressLength (escapeLength rest) rest
        (kind, n + 1)
      else (.brokenAddress, 1 + brokenAddressLength 0 rest)
    else
      let (kind, n) := addressLength 0 rest
      (kind, n + 1)

/-- The kind and the length of what follows `url(`: an address without quotes, or, where
the first thing is a quote, the arguments of a function, which are not part of the token. -/
def urlLength (cs : List Char) : Kind × Nat :=
  let spaces := (cs.takeWhile isSpace).length
  match cs.dropWhile isSpace with
  | [] => (.address, spaces)
  | c :: rest =>
    if c = '"' ∨ c = '\'' then (.function, 0)
    else if c = ')' then (.address, spaces + 1)
    else
      let (kind, n) := addressLength 0 (c :: rest)
      (kind, spaces + n)

/-! ### Names -/

/-- The value of a hexadecimal digit. -/
def hexValue (c : Char) : Nat :=
  if c.isDigit then c.toNat - '0'.toNat
  else if 'a' ≤ c && c ≤ 'f' then c.toNat - 'a'.toNat + 10
  else c.toNat - 'A'.toNat + 10

/-- The character that an escape stands for, its backslash apart. An escape that names no
character stands for the replacement character. -/
def escapedChar (cs : List Char) : Char :=
  let digits := (cs.take 6).takeWhile isHexDigit
  match digits, cs with
  | [], c :: _ => if c = '\x00' then '\ufffd' else c
  | [], [] => '\ufffd'
  | _, _ =>
    let code := digits.foldl (fun n c => 16 * n + hexValue c) 0
    if code ≠ 0 ∧ code.isValidChar then Char.ofNat code else '\ufffd'

/-- The characters that a name stands for, `skip` characters of an escape being done. -/
def unescape : (skip : Nat) → List Char → List Char
  | _, [] => []
  | skip + 1, _ :: rest => unescape skip rest
  | 0, c :: rest =>
    if c = '\\' then escapedChar rest :: unescape (escapeLength rest) rest
    else (if c = '\x00' then '\ufffd' else c) :: unescape 0 rest

/-- A name with its Latin letters in lower case, for the comparisons that ignore case. -/
def foldedName (text : List Char) : String :=
  String.ofList ((unescape 0 text).map Char.toLower)

/-- The length of a number: digits, a point with digits, an exponent with digits. The text
starts behind the sign. -/
def numberLength (cs : List Char) : Nat :=
  let whole := (cs.takeWhile Char.isDigit).length
  let afterWhole := cs.dropWhile Char.isDigit
  let fraction := match afterWhole with
    | '.' :: c :: rest =>
      if c.isDigit then 1 + ((c :: rest).takeWhile Char.isDigit).length else 0
    | _ => 0
  let afterFraction := afterWhole.drop fraction
  let exponent := match afterFraction with
    | e :: c :: rest =>
      if e = 'e' ∨ e = 'E' then
        if c.isDigit then 1 + ((c :: rest).takeWhile Char.isDigit).length
        else if c = '+' ∨ c = '-' then
          match (rest.takeWhile Char.isDigit).length with
          | 0 => 0
          | n + 1 => 2 + (n + 1)
        else 0
      else 0
    | _ => 0
  whole + fraction + exponent

/-- Whether a number starts here, behind a sign. -/
def startsUnsigned : List Char → Bool
  | '.' :: c :: _ => c.isDigit
  | c :: _ => c.isDigit
  | [] => false

/-- The kind and the length of a number with its unit or percent sign, behind its sign. -/
def numericLength (cs : List Char) : Kind × Nat :=
  let n := numberLength cs
  match cs.drop n with
  | '%' :: _ => (.percentage, n + 1)
  | rest => if startsName rest then (.dimension, n + nameLength 0 rest) else (.number, n)

/-! ### One token -/

/-- The kind and the length of a name, which is a function where a bracket follows and an
address where the name is `url` and no quote follows. -/
def namedLength (cs : List Char) : Kind × Nat :=
  let n := nameLength 0 cs
  match cs.drop n with
  | '(' :: rest =>
    if foldedName (cs.take n) = "url" then
      let (kind, more) := urlLength rest
      (kind, n + 1 + more)
    else (.function, n + 1)
  | _ => (.name, n)

/-- The kind of a mark that is a token by itself, whatever follows it. -/
def markKind? (c : Char) : Option Kind :=
  if c = '(' then some .openRound
  else if c = ')' then some .closeRound
  else if c = '[' then some .openSquare
  else if c = ']' then some .closeSquare
  else if c = '\x7b' then some .openCurly
  else if c = '\x7d' then some .closeCurly
  else if c = ',' then some .comma
  else if c = ':' then some .colon
  else if c = ';' then some .semicolon
  else none

/-- A length that is counted from the first character of a token, behind it. -/
def behindFirst (length : Kind × Nat) : Kind × Nat :=
  (length.1, length.2 - 1)

/-- Whether what could go on with a name starts here. -/
def continuesName : List Char → Bool
  | [] => false
  | c :: rest => startsName (c :: rest) || c.isDigit || c == '-'

/-- The kind and the length of what follows a sign that starts a token. -/
def signedLength (c : Char) (rest : List Char) : Kind × Nat :=
  if startsUnsigned rest then numericLength rest
  else if c = '-' then
    if ['-', '>'].isPrefixOf rest then (.other, 2)
    else if startsName (c :: rest) then behindFirst (namedLength (c :: rest))
    else (.other, 0)
  else (.other, 0)

/-- The kind and the length of what follows a slash that starts a token. -/
def slashLength : List Char → Kind × Nat
  | '*' :: more => (.comment, 1 + commentLength more)
  | _ => (.other, 0)

/-- The length of what follows any other mark. -/
def markLength (c : Char) (rest : List Char) : Nat :=
  if c = '$' ∨ c = '*' ∨ c = '^' ∨ c = '|' ∨ c = '~' then
    if rest.head? = some '=' then 1 else 0
  else if c = '<' then
    if ['!', '-', '-'].isPrefixOf rest then 3 else 0
  else 0

/-- The kind of a token and the number of its characters **behind** the first one. -/
def scan (c : Char) (rest : List Char) : Kind × Nat :=
  if isSpace c then (.space, (rest.takeWhile isSpace).length)
  else if c = '"' ∨ c = '\'' then stringLength c 0 rest
  else match markKind? c with
  | some kind => (kind, 0)
  | none =>
    if c = '#' then
      if continuesName rest then (.hash, nameLength 0 rest) else (.other, 0)
    else if c = '+' ∨ c = '-' then signedLength c rest
    else if c = '.' ∨ c.isDigit then
      if startsUnsigned (c :: rest) then behindFirst (numericLength (c :: rest)) else (.other, 0)
    else if c = '/' then slashLength rest
    else if c = '@' then
      if startsName rest then (.atKeyword, nameLength 0 rest) else (.other, 0)
    else if startsName (c :: rest) then behindFirst (namedLength (c :: rest))
    else (.other, markLength c rest)

/-- The tokens of a text. -/
def tokens : List Char → List Token
  | [] => []
  | c :: rest =>
    let (kind, n) := scan c rest
    ⟨kind, c :: rest.take n⟩ :: tokens (rest.drop n)
termination_by cs => cs.length
decreasing_by
  exact Nat.lt_succ_of_le (by rw [List.length_drop]; exact Nat.sub_le _ _)

/-- Nothing is lost: the texts of the tokens make up the text. -/
theorem text_tokens (cs : List Char) : (tokens cs).flatMap Token.text = cs := by
  induction cs using tokens.induct with
  | case1 => simp [tokens]
  | case2 c rest kind n h ih =>
    rw [tokens, h]
    simp [ih]

namespace Token

/-- Whether a string is not closed. Only the first and the last character are looked at, so
that an escaped quote at the very end counts as the closing one. -/
def isUnclosedString (token : Token) : Bool :=
  match token.kind with
  | .brokenString => true
  | .string => token.text.length < 2 || token.text.head? != token.text.getLast?
  | _ => false

/-- Whether a comment is not closed. -/
def isUnclosedComment (token : Token) : Bool :=
  token.kind == .comment &&
    (token.text.length < 4 || !(['/', '*'].isPrefixOf token.text.reverse))

end Token

end Restyle.Css
