import Restyle.Color.Names
import Restyle.Css.Token

/-!
# Colours

Which texts are colours, by the grammar of CSS Color 4 and 5: names, hash colours, the
functional notations of the colour spaces, mixes of two colours, and pairs for light and dark
mode. `Restyle.Color.isColor` says whether a text is one colour and nothing else.

A colour is read from its tokens, white space and comments dropped. A function that the text
leaves open is closed by the end of the text. What a colour is like matters in one place
only: a mix needs colours that are known (`Restyle.Color.Shade`), which the current colour
and the colours of the system are not.
-/

namespace Restyle.Color

open Restyle.Css (Kind Token foldedName)

/-- What is known of a colour. -/
inductive Shade where
  /-- A colour that is written out. -/
  | known
  /-- A colour that only the page or the system decides. -/
  | deferred
  /-- One colour for light mode and one for dark mode. -/
  | byMode (light dark : Shade)
  deriving DecidableEq, Repr

namespace Shade

/-- What a colour is in light mode. -/
def inLight : Shade → Shade
  | byMode light _ => light
  | shade => shade

/-- What a colour is in dark mode. -/
def inDark : Shade → Shade
  | byMode _ dark => dark
  | shade => shade

/-- Whether a colour can be mixed with others. -/
def isKnown : Shade → Bool
  | known => true
  | deferred => false
  | byMode light dark => light.isKnown && dark.isKnown

end Shade

/-! ### Numbers -/

/-- A decimal number in its normal form: digits without a zero at either end, and the power
of ten of the last one. Zero has no digits. -/
structure Decimal where
  isNegative : Bool
  digits : List Char
  exponent : Int
  deriving DecidableEq, Repr

/-- The value of a list of digits. -/
def digitsValue (digits : List Char) : Nat :=
  digits.foldl (fun n c => 10 * n + (c.toNat - '0'.toNat)) 0

/-- The number that the text of a numeric token starts with. -/
def Decimal.ofText (text : List Char) : Decimal :=
  let isNegative := text.head? == some '-'
  let unsigned := if isNegative || text.head? == some '+' then text.drop 1 else text
  let whole := unsigned.takeWhile Char.isDigit
  let afterWhole := unsigned.dropWhile Char.isDigit
  let fraction := match afterWhole with
    | '.' :: rest => rest.takeWhile Char.isDigit
    | _ => []
  let afterFraction :=
    if fraction.isEmpty then afterWhole else afterWhole.drop (1 + fraction.length)
  let exponent : Int := match afterFraction with
    | 'e' :: '-' :: rest => -(digitsValue (rest.takeWhile Char.isDigit) : Int)
    | 'E' :: '-' :: rest => -(digitsValue (rest.takeWhile Char.isDigit) : Int)
    | 'e' :: '+' :: rest => digitsValue (rest.takeWhile Char.isDigit)
    | 'E' :: '+' :: rest => digitsValue (rest.takeWhile Char.isDigit)
    | 'e' :: rest => digitsValue (rest.takeWhile Char.isDigit)
    | 'E' :: rest => digitsValue (rest.takeWhile Char.isDigit)
    | _ => 0
  let digits := (whole ++ fraction).dropWhile (· == '0')
  let zeros := (digits.reverse.takeWhile (· == '0')).length
  { isNegative, digits := digits.take (digits.length - zeros)
    exponent := if digits.isEmpty then 0 else exponent - fraction.length + zeros }

/-- Whether two numbers add up to zero. -/
def Decimal.cancels (p q : Decimal) : Bool :=
  if p.digits.isEmpty then q.digits.isEmpty
  else p.digits == q.digits && p.exponent == q.exponent && p.isNegative != q.isNegative

/-! ### Components -/

/-- A reader takes tokens from the front and gives what it read and what is left. -/
abbrev Reader (α : Type) := List Token → Option (α × List Token)

/-- Whether a token is a name, in any case. -/
def isName (word : String) (token : Token) : Bool :=
  token.kind == .name && foldedName token.text == word

/-- The kind of a component that was read, where it matters. -/
inductive Component where
  | number | percentage | missing
  deriving DecidableEq, Repr

/-- Takes one token that a test accepts. -/
def take (p : Token → Bool) : Reader Token
  | token :: rest => if p token then some (token, rest) else none
  | [] => none

/-- Takes the word `none`, if it is allowed. -/
def missing (allowed : Bool) : Reader Component := fun tokens =>
  if allowed then (take (isName "none") tokens).map fun (_, rest) => (.missing, rest) else none

/-- A number. -/
def number (allowMissing : Bool) : Reader Component := fun tokens =>
  match take (·.kind == .number) tokens with
  | some (_, rest) => some (.number, rest)
  | none => missing allowMissing tokens

/-- A percentage. -/
def percentage (allowMissing : Bool) : Reader Component := fun tokens =>
  match take (·.kind == .percentage) tokens with
  | some (_, rest) => some (.percentage, rest)
  | none => missing allowMissing tokens

/-- A number or a percentage. -/
def numberOrPercentage (allowMissing : Bool) : Reader Component := fun tokens =>
  match number allowMissing tokens with
  | some read => some read
  | none => percentage allowMissing tokens

/-- The units of an angle. -/
def angleUnits : List String := ["deg", "grad", "rad", "turn"]

/-- Whether a token is an angle. -/
def isAngle (token : Token) : Bool :=
  token.kind == .dimension &&
    (let sign := match token.text with
      | c :: _ => if c == '+' || c == '-' then 1 else 0
      | [] => 0
    let length := Css.numberLength (token.text.drop sign)
    angleUnits.contains (foldedName (token.text.drop (sign + length))))

/-- An angle or a number. -/
def angleOrNumber (allowMissing : Bool) : Reader Component := fun tokens =>
  match take isAngle tokens with
  | some (_, rest) => some (.number, rest)
  | none => number allowMissing tokens

/-- A comma. -/
def comma : Reader Token := take (·.kind == .comma)

/-- The end of the arguments of a function: its closing bracket, or the end of the text. -/
def close : List Token → Option (List Token)
  | [] => some []
  | token :: rest => if token.kind == .closeRound then some rest else none

/-- The alpha component behind a slash, if there is one. -/
def slashAlpha (tokens : List Token) : Option (List Token) :=
  match tokens with
  | token :: rest =>
    if token.kind == .other && token.text == ['/'] then
      (numberOrPercentage true rest).map Prod.snd
    else some tokens
  | [] => some []

/-- The alpha component behind a comma, if there is one. -/
def commaAlpha (tokens : List Token) : Option (List Token) :=
  match comma tokens with
  | some (_, rest) => (numberOrPercentage false rest).map Prod.snd
  | none => some tokens

/-! ### Functional notations -/

/-- The components of a colour with three components and slash alpha, up to the end. -/
def threeComponents (first second third : Bool → Reader Component) (tokens : List Token) :
    Option (List Token) := do
  let (_, tokens) ← first true tokens
  let (_, tokens) ← second true tokens
  let (_, tokens) ← third true tokens
  close (← slashAlpha tokens)

/-- The arguments of `rgb`: either all separated by white space, or all by commas and then
all of one kind. -/
def rgb (tokens : List Token) : Option (List Token) := do
  let (red, rest) ← numberOrPercentage true tokens
  match red, comma rest with
  | .number, some (_, rest) => withCommas number rest
  | .percentage, some (_, rest) => withCommas percentage rest
  | _, _ => threeComponents numberOrPercentage numberOrPercentage numberOrPercentage tokens
where
  /-- Green and blue, separated by a comma, and alpha. -/
  withCommas (component : Bool → Reader Component) (tokens : List Token) :
      Option (List Token) := do
    let (_, tokens) ← component false tokens
    let (_, tokens) ← comma tokens
    let (_, tokens) ← component false tokens
    close (← commaAlpha tokens)

/-- The arguments of `hsl`: a hue and two percentages, separated by white space or by
commas. -/
def hsl (tokens : List Token) : Option (List Token) := do
  let (hue, rest) ← angleOrNumber true tokens
  match hue, comma rest with
  | .number, some (_, rest) => do
    let (_, rest) ← percentage false rest
    let (_, rest) ← comma rest
    let (_, rest) ← percentage false rest
    close (← commaAlpha rest)
  | _, _ => threeComponents angleOrNumber percentage percentage tokens

/-- The colour spaces of the function `color`. -/
def spaces : List String :=
  ["srgb", "srgb-linear", "display-p3", "a98-rgb", "prophoto-rgb", "rec2020", "xyz", "xyz-d50",
    "xyz-d65"]

/-- The arguments of `color`: a colour space and three components. -/
def inSpace (tokens : List Token) : Option (List Token) := do
  let (_, tokens) ← take (fun token => spaces.any fun space => isName space token) tokens
  threeComponents numberOrPercentage numberOrPercentage numberOrPercentage tokens

/-- The colour spaces in which colours can be mixed. -/
def mixingSpaces : List String :=
  ["srgb", "srgb-linear", "lab", "oklab", "xyz", "xyz-d50", "xyz-d65"]

/-- The colour spaces with a hue in which colours can be mixed. -/
def hueSpaces : List String := ["hsl", "hwb", "lch", "oklch"]

/-- The ways around the hue circle. -/
def hueMethods : List String := ["shorter", "longer", "increasing", "decreasing"]

/-- What a mix starts with: the space, and the way around the circle in a space with a
hue. -/
def mixingMethod (tokens : List Token) : Option (List Token) := do
  let (_, tokens) ← take (isName "in") tokens
  match take (fun token => mixingSpaces.any fun space => isName space token) tokens with
  | some (_, tokens) => pure tokens
  | none =>
    let (_, tokens) ← take (fun token => hueSpaces.any fun space => isName space token) tokens
    match take (fun token => hueMethods.any fun method => isName method token) tokens with
    | some (_, tokens) => (take (isName "hue") tokens).map Prod.snd
    | none => pure tokens

/-- A share of a mix, if one is given here. -/
def share (tokens : List Token) : Option Decimal × List Token :=
  match take (·.kind == .percentage) tokens with
  | some (token, rest) => (some (Decimal.ofText token.text), rest)
  | none => (none, tokens)

/-- A colour of a mix, with its share in front of it or behind it. -/
def mixed (color : Reader Shade) : Reader (Shade × Option Decimal) := fun tokens =>
  match share tokens with
  | (some amount, rest) => (color rest).map fun (shade, rest) => ((shade, some amount), rest)
  | (none, rest) => (color rest).map fun (shade, rest) =>
      let (amount, rest) := share rest
      ((shade, amount), rest)

/-- The arguments of `color-mix`. The two shares must not add up to nothing, and both
colours have to be known. -/
def mix (color : Reader Shade) : Reader Shade := fun tokens => do
  let tokens ← mixingMethod tokens
  let (_, tokens) ← comma tokens
  let ((first, p), tokens) ← mixed color tokens
  let (_, tokens) ← comma tokens
  let ((second, q), tokens) ← mixed color tokens
  let cancels := match p, q with
    | some p, some q => p.cancels q
    | _, _ => false
  if cancels || !first.isKnown || !second.isKnown then none
  let rest ← close tokens
  pure (.known, rest)

/-- The arguments of `light-dark`. -/
def lightDark (color : Reader Shade) : Reader Shade := fun tokens => do
  let (light, tokens) ← color tokens
  let (_, tokens) ← comma tokens
  let (dark, tokens) ← color tokens
  let rest ← close tokens
  pure (.byMode light.inLight dark.inDark, rest)

/-- The colour of a name. -/
def ofName? (word : String) : Option Shade :=
  if word = "currentcolor" then some .deferred
  else if word = "transparent" ∨ named.contains word then some .known
  else if system.contains word then some .deferred
  else none

/-- Whether a text behind `#` is a colour: three, four, six or eight hexadecimal digits. -/
def isHashColor (text : List Char) : Bool :=
  text.all Css.isHexDigit && [3, 4, 6, 8].contains text.length

/-- The colour in front. The first argument bounds the depth of colours in colours. -/
def color : Nat → Reader Shade
  | 0, _ => none
  | _ + 1, [] => none
  | depth + 1, token :: rest =>
    let known (read : Option (List Token)) : Option (Shade × List Token) :=
      read.map fun rest => (.known, rest)
    match token.kind with
    | .hash =>
      if isHashColor (Css.unescape 0 (token.text.drop 1)) then some (.known, rest) else none
    | .name => (ofName? (foldedName token.text)).map fun shade => (shade, rest)
    | .function =>
      match foldedName token.text.dropLast with
      | "rgb" | "rgba" => known (rgb rest)
      | "hsl" | "hsla" => known (hsl rest)
      | "hwb" => known (threeComponents angleOrNumber percentage percentage rest)
      | "lab" | "oklab" => known (threeComponents percentage number number rest)
      | "lch" | "oklch" => known (threeComponents percentage number angleOrNumber rest)
      | "color" => known (inSpace rest)
      | "color-mix" => mix (color depth) rest
      | "light-dark" => lightDark (color depth) rest
      | _ => none
    | _ => none

/-- Whether a text is one colour. -/
def isColor (text : List Char) : Bool :=
  let tokens := (Css.tokens text).filter fun token =>
    token.kind != .space && token.kind != .comment
  match color (tokens.length + 1) tokens with
  | some (_, rest) => rest.isEmpty
  | none => false

end Restyle.Color
