import Restyle.Color.Grammar
import Restyle.Text.Blank
import Restyle.Text.Search

/-!
# Values that are colours

A variable that holds a colour is treated in a way of its own, so its value has to be
recognised. `Restyle.Color.isColorValue` recognises what is a colour as it stands.
`Restyle.Color.isTriple` recognises the bare components of a colour, three numbers such as
`222.2 84% 4.9%`, which become a colour when `hsl()` is put around them.
-/

namespace Restyle.Color

/-- What a value starts with when it is taken for a colour without a further look. -/
def colorBeginnings : List String := ["hsl", "rgb", "#", "oklch"]

/-- Whether a value is taken for a colour by how it starts. -/
def startsLikeColor (text : List Char) : Bool :=
  colorBeginnings.any fun beginning => Text.startsWith beginning.toList text

/-- Whether a text starts with a digit. -/
def startsWithDigit (text : List Char) : Bool :=
  (text.head?.map Char.isDigit).getD false

/-- Whether a text is an exponent, or nothing. -/
def isExponent (text : List Char) : Bool :=
  match text with
  | [] => true
  | c :: rest =>
    let digits := match rest with
      | s :: after => if s == '+' || s == '-' then after else rest
      | [] => []
    (c == 'e' || c == 'E') && !digits.isEmpty && digits.all Char.isDigit

/-- Words for what is no finite number. -/
def floatWords : List (List Char) := ["inf".toList, "infinity".toList, "nan".toList]

/-- Whether a text is a number without its sign: digits, a point and digits, of which some
may be missing but not all, and perhaps an exponent; or a word for what is no finite
number. -/
def isUnsignedFloat (text : List Char) : Bool :=
  if floatWords.contains (text.map Char.toLower) then true
  else
    match text.dropWhile Char.isDigit with
    | '.' :: more => (startsWithDigit text || startsWithDigit more) &&
        isExponent (more.dropWhile Char.isDigit)
    | rest => startsWithDigit text && isExponent rest

/-- Whether a text is a number. -/
def isFloat (text : List Char) : Bool :=
  match text with
  | c :: rest => if c == '+' || c == '-' then isUnsignedFloat rest else isUnsignedFloat text
  | [] => false

/-- A text without the repetitions of `deg` at its end, both written backwards. -/
def dropDegrees : List Char → List Char
  | 'g' :: 'e' :: 'd' :: rest => dropDegrees rest
  | text => text

/-- Whether a text is a number, perhaps with `deg` and then percent signs behind it. -/
def isComponent (text : List Char) : Bool :=
  isFloat (dropDegrees (text.reverse.dropWhile (· == '%'))).reverse

/-- Whether a value is a hue and two percentages, with one space between each. -/
def isTriple (value : String) : Bool :=
  !startsLikeColor value.toList &&
    (match Text.splitAt (· == ' ') value.toList with
      | [hue, saturation, lightness] =>
        saturation.contains '%' && lightness.contains '%' &&
          isComponent hue && isComponent saturation && isComponent lightness
      | _ => false)

/-- Whether a value, blanks at its ends apart, is a colour. -/
def isColorValue (value : String) : Bool :=
  let text := Text.trim value.toList
  startsLikeColor text || isColor text

/-- A value with `hsl()` around it if it is a bare triple. -/
def wrapTriple (value : String) : String :=
  if isTriple value then "hsl(" ++ value ++ ")" else value

end Restyle.Color
