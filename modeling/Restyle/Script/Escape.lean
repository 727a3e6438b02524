/-!
# Escapes in string literals

A string literal of a script stands for a text in which some characters are written as
escapes. `Restyle.Script.decode?` reads the text between the quotes, and
`Restyle.Script.encode` writes one: it escapes only what could end the literal or change its
meaning – the backslash, the line feed and the quote in use – and leaves everything else as
it is.
-/

namespace Restyle.Script

/-- The characters that end a line. -/
def isLineEnd (c : Char) : Bool :=
  c == '\n' || c == '\r' || c == '\u2028' || c == '\u2029'

/-- The value of a hexadecimal digit. -/
def hexValue? (c : Char) : Option Nat :=
  if c.isDigit then some (c.toNat - '0'.toNat)
  else if 'a' ≤ c && c ≤ 'f' then some (c.toNat - 'a'.toNat + 10)
  else if 'A' ≤ c && c ≤ 'F' then some (c.toNat - 'A'.toNat + 10)
  else none

/-- The number that hexadecimal digits write; there has to be one at least. -/
def hexNumber? (digits : List Char) : Option Nat :=
  if digits.isEmpty then none
  else digits.foldlM (fun n c => (hexValue? c).map (16 * n + ·)) 0

/-- The digit of a number below 16, in lower case. -/
def hexDigit (n : Nat) : Char :=
  if n < 10 then Char.ofNat ('0'.toNat + n) else Char.ofNat ('a'.toNat + (n - 10))

/-- What stands for half of a surrogate pair, which no text can hold: the replacement
character and the number of the half. -/
def halfSurrogate (unit : Nat) : List Char :=
  ['\ufffd', hexDigit (unit / 4096 % 16), hexDigit (unit / 256 % 16), hexDigit (unit / 16 % 16),
    hexDigit (unit % 16)]

/-- The characters of a code point. -/
def charsOfCode (code : Nat) : List Char :=
  if 0xD800 ≤ code ∧ code ≤ 0xDFFF then halfSurrogate code else [Char.ofNat code]

/-- The code unit of an escape with four digits in front of a text that starts with its
letter `u`. -/
def fourDigits? : List Char → Option Nat
  | 'u' :: a :: b :: c :: d :: _ => hexNumber? [a, b, c, d]
  | _ => none

/-- What an escape with the letter `u` stands for, and the number of characters behind the
letter. -/
def readUnicode? (cs : List Char) : Option (List Char × Nat) :=
  match cs with
  | '\x7b' :: rest => do
    let digits := rest.takeWhile (· != '\x7d')
    let code ← hexNumber? digits
    if (rest.drop digits.length).isEmpty || 0x10FFFF < code then none
    pure (charsOfCode code, digits.length + 2)
  | _ => do
    let unit ← fourDigits? ('u' :: cs)
    if 0xD800 ≤ unit ∧ unit ≤ 0xDBFF then
      match cs.drop 4 with
      | '\\' :: more =>
        match fourDigits? more with
        | some low =>
          if 0xDC00 ≤ low ∧ low ≤ 0xDFFF then
            pure ([Char.ofNat (0x10000 + (unit - 0xD800) * 0x400 + (low - 0xDC00))], 10)
          else pure (halfSurrogate unit, 4)
        | none => pure (halfSurrogate unit, 4)
      | _ => pure (halfSurrogate unit, 4)
    else pure (charsOfCode unit, 4)

/-- The octal digits. -/
def isOctalDigit (c : Char) : Bool :=
  '0' ≤ c && c ≤ '7'

/-- What an escape stands for, and its number of characters behind the backslash. -/
def readEscape? : List Char → Option (List Char × Nat)
  | [] => none
  | 'n' :: _ => some (['\n'], 1)
  | 't' :: _ => some (['\t'], 1)
  | 'r' :: _ => some (['\r'], 1)
  | 'b' :: _ => some (['\x08'], 1)
  | 'v' :: _ => some (['\x0b'], 1)
  | 'f' :: _ => some (['\x0c'], 1)
  | '\r' :: '\n' :: _ => some ([], 2)
  | 'x' :: a :: b :: _ => (hexNumber? [a, b]).map fun code => ([Char.ofNat code], 3)
  | 'x' :: _ => none
  | 'u' :: rest => (readUnicode? rest).map fun (chars, n) => (chars, n + 1)
  | c :: rest =>
    if isLineEnd c then some ([], 1)
    else if isOctalDigit c then
      let digits := ((c :: rest).take (if c ≤ '3' then 3 else 2)).takeWhile isOctalDigit
      let code := digits.foldl (fun n d => 8 * n + (d.toNat - '0'.toNat)) 0
      some ([Char.ofNat code], digits.length)
    else some ([c], 1)

/-- The text that the characters between two quotes stand for, `skip` of them being part of
an escape that was read. -/
def decodeFrom? : (skip : Nat) → List Char → Option (List Char)
  | _, [] => some []
  | skip + 1, _ :: rest => decodeFrom? skip rest
  | 0, c :: rest =>
    if c = '\\' then
      match readEscape? rest with
      | some (chars, n) => (decodeFrom? n rest).map (chars ++ ·)
      | none => none
    else (decodeFrom? 0 rest).map (c :: ·)

/-- The text that the characters between two quotes stand for. -/
def decode? (body : List Char) : Option (List Char) :=
  decodeFrom? 0 body

/-- A text as it is written between two quotes. -/
def encode (quote : Char) : List Char → List Char
  | [] => []
  | c :: rest =>
    if c = '\\' then '\\' :: '\\' :: encode quote rest
    else if c = '\n' then '\\' :: 'n' :: encode quote rest
    else if c = quote then '\\' :: c :: encode quote rest
    else c :: encode quote rest

end Restyle.Script
