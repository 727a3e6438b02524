import Restyle.Order.Entries

/-!
# JSON values

A rule description is a JSON object whose *order* matters, so a value keeps the members
of an object as they were written, repetitions included: `Restyle.Json.Value.settled` is
the reading in which a repeated key keeps its first place and takes its last value.

Numbers are kept as written, since no number is ever computed with; all that can be asked
of one is whether it is in the range of a double (`Restyle.Json.Value.isRepresentable`).
A piece of text that holds half of a surrogate pair stands for no string at all: it is
`Restyle.Json.Value.garbled`, which can be skipped but not used.
-/

namespace Restyle.Json

/-- A JSON value, with the members of an object in the order of the text. -/
inductive Value where
  | null
  | bool (value : Bool)
  /-- A number, as it was written. -/
  | number (literal : String)
  | string (text : String)
  /-- A string, or an object with a key, that holds half of a surrogate pair. -/
  | garbled
  | array (items : List Value)
  | object (members : List (String × Value))

namespace Value

mutual

/-- The value in which every object names each key once: the first place, the last value. -/
def settled : Value → Value
  | array items => array (settledItems items)
  | object members => object (Entries.ofWrites (settledMembers members))
  | value => value

/-- Each item settled. -/
def settledItems : List Value → List Value
  | [] => []
  | item :: items => settled item :: settledItems items

/-- Each member settled, repetitions still there. -/
def settledMembers : List (String × Value) → List (String × Value)
  | [] => []
  | (key, value) :: members => (key, settled value) :: settledMembers members

end

/-- The members of an object. -/
def members? : Value → Option (List (String × Value))
  | object members => some members
  | _ => none

/-- The text of a string. -/
def text? : Value → Option String
  | string text => some text
  | _ => none

/-- The value of a truth value. -/
def bool? : Value → Option Bool
  | bool value => some value
  | _ => none

/-- Whether a value is the object without members. -/
def isEmptyObject : Value → Bool
  | object [] => true
  | _ => false

/-! ### The range of numbers -/

/-- The number that a list of decimal digits writes. -/
def digitsValue (digits : List Char) : Nat :=
  digits.foldl (fun n c => 10 * n + (c.toNat - '0'.toNat)) 0

/-- Whether the decimal `digits · 10 ^ (exponent - fraction)` stays below the numbers that a
double rounds to infinity. The bound is `2 ^ 1024 - 2 ^ 970`, the midpoint between the
largest double and the next power of two; a number of at most 300 digits is far below it
and one of more than 310 far above, so that only the rest is computed. -/
def isBelowInfinity (digits : List Char) (fraction : Nat) (exponent : Int) : Bool :=
  let significant := digits.dropWhile (· == '0')
  let scale : Int := exponent - fraction
  let magnitude : Int := significant.length + scale
  if significant.isEmpty || magnitude ≤ 300 then true
  else if magnitude > 310 then false
  else
    let bound := Nat.pow 2 1024 - Nat.pow 2 970
    if 0 ≤ scale then digitsValue significant * Nat.pow 10 scale.toNat < bound
    else digitsValue significant < bound * Nat.pow 10 (-scale).toNat

/-- Whether a number, as written, is in the range of a double. -/
def isInRange (literal : String) : Bool :=
  let unsigned := literal.toList.filter (· != '-')
  let cs := if literal.toList.head? = some '-' then literal.toList.drop 1 else literal.toList
  let mantissa := cs.takeWhile (fun c => c != 'e' && c != 'E')
  let exponentText := (cs.dropWhile (fun c => c != 'e' && c != 'E')).drop 1
  let exponentDigits := exponentText.filter Char.isDigit
  let exponent : Int :=
    if exponentText.head? = some '-' then -(digitsValue exponentDigits : Int)
    else digitsValue exponentDigits
  let fraction := (mantissa.dropWhile (· != '.')).drop 1
  unsigned.isEmpty || isBelowInfinity (mantissa.filter Char.isDigit) fraction.length exponent

mutual

/-- Whether a value can be held in memory as a whole: all its numbers are in range and
all its texts are strings. -/
def isRepresentable : Value → Bool
  | garbled => false
  | number literal => isInRange literal
  | array items => areRepresentable items
  | object members => membersRepresentable members
  | _ => true

/-- Each item can be held in memory. -/
def areRepresentable : List Value → Bool
  | [] => true
  | item :: items => isRepresentable item && areRepresentable items

/-- Each member can be held in memory. -/
def membersRepresentable : List (String × Value) → Bool
  | [] => true
  | (_, value) :: members => isRepresentable value && membersRepresentable members

end

end Value

end Restyle.Json
