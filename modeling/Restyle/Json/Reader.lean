import Restyle.Json.Value

/-!
# Reading JSON

`Restyle.Json.Value.ofText?` reads one JSON text, strictly: no byte order mark, no comment,
no trailing comma and nothing after the value. Blanks are the four of the format: space,
tab, line feed and carriage return.

Each reader takes the characters from where it stands and gives what it read together with
the characters behind it. Values nest, so the reader of values carries a bound on the
number of steps; every step takes a character, and `Restyle.Json.Value.ofText?` starts with
the length of the text, so that the bound never shows.
-/

namespace Restyle.Json

/-- The four blanks of the format. -/
def isSpace (c : Char) : Bool :=
  c == ' ' || c == '\t' || c == '\n' || c == '\r'

/-- Drops the blanks in front. -/
def skipSpace (cs : List Char) : List Char :=
  cs.dropWhile isSpace

/-! ### Strings -/

/-- The value of a hexadecimal digit. -/
def hexDigit? (c : Char) : Option Nat :=
  if c.isDigit then some (c.toNat - '0'.toNat)
  else if 'a' ≤ c && c ≤ 'f' then some (c.toNat - 'a'.toNat + 10)
  else if 'A' ≤ c && c ≤ 'F' then some (c.toNat - 'A'.toNat + 10)
  else none

/-- A number of four hexadecimal digits, and what follows. -/
def readHex4? : List Char → Option (Nat × List Char)
  | a :: b :: c :: d :: rest => do
    let a ← hexDigit? a
    let b ← hexDigit? b
    let c ← hexDigit? c
    let d ← hexDigit? d
    pure (((a * 16 + b) * 16 + c) * 16 + d, rest)
  | _ => none

/-- Whether a code unit opens a surrogate pair. -/
def isHighSurrogate (n : Nat) : Bool := 0xD800 ≤ n && n ≤ 0xDBFF

/-- Whether a code unit closes a surrogate pair. -/
def isLowSurrogate (n : Nat) : Bool := 0xDC00 ≤ n && n ≤ 0xDFFF

/-- What the text of a string stands for: its characters, read from the last to the first,
and whether every surrogate found its other half. -/
structure StringText where
  /-- The characters read so far, the last one first. -/
  reversed : List Char
  /-- No surrogate is left alone. -/
  isWhole : Bool

/-- One more character. -/
def StringText.push (text : StringText) (c : Char) : StringText :=
  { text with reversed := c :: text.reversed }

/-- The meaning of the letter after a backslash, `u` apart. -/
def simpleEscape? : Char → Option Char
  | '"' => some '"'
  | '\\' => some '\\'
  | '/' => some '/'
  | 'b' => some '\x08'
  | 'f' => some '\x0c'
  | 'n' => some '\n'
  | 'r' => some '\r'
  | 't' => some '\t'
  | _ => none

/-- The characters of a string up to its closing quote, and what follows the quote. The
first argument bounds the number of steps. -/
def readStringText? : Nat → StringText → List Char → Option (StringText × List Char)
  | 0, _, _ => none
  | steps + 1, text, cs =>
    match cs with
    | [] => none
    | '"' :: rest => some (text, rest)
    | '\\' :: 'u' :: rest =>
      match readHex4? rest with
      | none => none
      | some (unit, rest) =>
        if isHighSurrogate unit then
          match rest with
          | '\\' :: 'u' :: more =>
            match readHex4? more with
            | none => none
            | some (low, after) =>
              if isLowSurrogate low then
                let code := 0x10000 + (unit - 0xD800) * 0x400 + (low - 0xDC00)
                readStringText? steps (text.push (Char.ofNat code)) after
              else readStringText? steps { text with isWhole := false } rest
          | _ => readStringText? steps { text with isWhole := false } rest
        else if isLowSurrogate unit then
          readStringText? steps { text with isWhole := false } rest
        else readStringText? steps (text.push (Char.ofNat unit)) rest
    | '\\' :: c :: rest =>
      match simpleEscape? c with
      | some d => readStringText? steps (text.push d) rest
      | none => none
    | c :: rest => if c.toNat < 0x20 then none else readStringText? steps (text.push c) rest

/-- The string whose opening quote was just read; nothing stands for a string with half of
a surrogate pair in it. -/
def readString? (cs : List Char) : Option (Option String × List Char) :=
  (readStringText? (cs.length + 1) ⟨[], true⟩ cs).map fun (text, rest) =>
    (if text.isWhole then some (String.ofList text.reversed.reverse) else none, rest)

/-! ### Numbers -/

/-- One or more digits, and what follows. -/
def readDigits? (cs : List Char) : Option (List Char × List Char) :=
  let digits := cs.takeWhile Char.isDigit
  if digits.isEmpty then none else some (digits, cs.dropWhile Char.isDigit)

/-- The integer part of a number: one digit, or several of which the first is not `0`. -/
def readInteger? : List Char → Option (List Char × List Char)
  | '0' :: rest => match rest with
    | c :: _ => if c.isDigit then none else some (['0'], rest)
    | [] => some (['0'], rest)
  | cs => readDigits? cs

/-- The part of a number behind its point, if there is a point. -/
def readFraction? : List Char → Option (List Char × List Char)
  | '.' :: rest => (readDigits? rest).map fun (digits, after) => ('.' :: digits, after)
  | cs => some ([], cs)

/-- The exponent of a number, if there is one. -/
def readExponent? : List Char → Option (List Char × List Char)
  | c :: rest =>
    if c == 'e' || c == 'E' then
      match rest with
      | s :: more =>
        if s == '+' || s == '-' then
          (readDigits? more).map fun (digits, after) => (c :: s :: digits, after)
        else (readDigits? rest).map fun (digits, after) => (c :: digits, after)
      | [] => none
    else some ([], c :: rest)
  | [] => some ([], [])

/-- A number as written, and what follows. -/
def readNumber? (cs : List Char) : Option (String × List Char) := do
  let (sign, cs) := match cs with
    | '-' :: rest => (['-'], rest)
    | _ => ([], cs)
  let (whole, cs) ← readInteger? cs
  let (fraction, cs) ← readFraction? cs
  let (exponent, cs) ← readExponent? cs
  pure (String.ofList (sign ++ whole ++ fraction ++ exponent), cs)

/-! ### Values -/

/-- What follows a keyword, if the text starts with it. -/
def keyword? (word : String) (cs : List Char) : Option (List Char) :=
  if word.toList.isPrefixOf cs then some (cs.drop word.length) else none

/-- The object that a list of members makes: a key with half of a surrogate pair in it
spoils the whole. -/
def objectOfMembers (members : List (Option String × Value)) : Value :=
  match members.mapM fun member => member.1.map fun key => (key, member.2) with
  | some members => .object members
  | none => .garbled

mutual

/-- One value, and what follows it. The first argument bounds the number of steps. -/
def readValue? : Nat → List Char → Option (Value × List Char)
  | 0, _ => none
  | steps + 1, cs =>
    match skipSpace cs with
    | '"' :: rest => (readString? rest).map fun (text, after) =>
        (match text with | some text => .string text | none => .garbled, after)
    | '[' :: rest =>
      match skipSpace rest with
      | ']' :: after => some (.array [], after)
      | _ => (readItems? steps rest).map fun (items, after) => (.array items, after)
    | '\x7b' :: rest =>
      match skipSpace rest with
      | '\x7d' :: after => some (.object [], after)
      | _ => (readMembers? steps rest).map fun (members, after) =>
          (objectOfMembers members, after)
    | cs =>
      match keyword? "null" cs with
      | some after => some (.null, after)
      | none => match keyword? "true" cs with
        | some after => some (.bool true, after)
        | none => match keyword? "false" cs with
          | some after => some (.bool false, after)
          | none => (readNumber? cs).map fun (literal, after) => (.number literal, after)

/-- One or more items with commas between them, and what follows the closing bracket. -/
def readItems? : Nat → List Char → Option (List Value × List Char)
  | 0, _ => none
  | steps + 1, cs =>
    match readValue? steps cs with
    | none => none
    | some (item, rest) =>
      match skipSpace rest with
      | ']' :: after => some ([item], after)
      | ',' :: more => (readItems? steps more).map fun (items, after) => (item :: items, after)
      | _ => none

/-- One or more members with commas between them, and what follows the closing brace. -/
def readMembers? : Nat → List Char → Option (List (Option String × Value) × List Char)
  | 0, _ => none
  | steps + 1, cs =>
    match skipSpace cs with
    | '"' :: rest =>
      match readString? rest with
      | none => none
      | some (key, rest) =>
        match skipSpace rest with
        | ':' :: rest =>
          match readValue? steps rest with
          | none => none
          | some (value, rest) =>
            match skipSpace rest with
            | '\x7d' :: after => some ([(key, value)], after)
            | ',' :: more => (readMembers? steps more).map fun (members, after) =>
                ((key, value) :: members, after)
            | _ => none
        | _ => none
    | _ => none

end

/-- The value that a JSON text writes, the members of its objects as they stand. -/
def Value.ofText? (text : String) : Option Value :=
  let cs := text.toList
  match readValue? (2 * cs.length + 2) cs with
  | some (value, rest) => if (skipSpace rest).isEmpty then some value else none
  | none => none

end Restyle.Json
