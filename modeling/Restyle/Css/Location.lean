import Restyle.Css.Token

/-!
# Lines and columns

Where something stands in a style sheet is told as a line and a column, both counted from
one. A line ends with a line feed, a form feed, a carriage return, or a carriage return and
a line feed together. Columns count UTF-16 units, so that a character outside the basic
plane takes two.
-/

namespace Restyle.Css

/-- A line and a column, both counted from one. -/
structure Location where
  line : Nat := 1
  column : Nat := 1
  deriving DecidableEq, Repr

/-- The number of UTF-16 units of a character. -/
def unitsOf (c : Char) : Nat :=
  if c.toNat < 0x10000 then 1 else 2

/-- Where the end of a text is, its start being at `location`. -/
def Location.after (location : Location) : List Char → Location
  | [] => location
  | '\r' :: '\n' :: rest => Location.after ⟨location.line + 1, 1⟩ rest
  | c :: rest =>
    if isNewline c then Location.after ⟨location.line + 1, 1⟩ rest
    else Location.after ⟨location.line, location.column + unitsOf c⟩ rest

/-- Where the character number `offset` of a text is. -/
def Location.ofOffset (text : List Char) (offset : Nat) : Location :=
  Location.after {} (text.take offset)

end Restyle.Css
