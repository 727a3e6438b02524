/-!
# Program trees

What is kept of a program is what decides which of its string literals are class lists: the
literals themselves, calls with what is called, attributes of elements with their names, and
how all these are nested. Everything else – statements, types, operators, templates – is a
group of the nodes inside it, in the order of the text.
-/

namespace Restyle.Script

/-- A string literal of a program. -/
structure Literal where
  /-- The number of characters in front of its opening quote. -/
  start : Nat
  /-- The number of characters in front of the end of its closing quote. -/
  stop : Nat
  /-- The text that it stands for. -/
  value : String
  /-- Whether its text stands for itself, without escapes, as in an attribute. -/
  isRaw : Bool
  deriving DecidableEq, Repr

/-- A node of a program tree. -/
inductive Node where
  | literal (literal : Literal)
  /-- A variable. -/
  | identifier (name : String)
  /-- A call: what is called, and what is inside the call besides, its type arguments
  included. -/
  | call (callee : Node) (parts : List Node)
  /-- An attribute of an element, by its name unless that is qualified, and what is in its
  value. -/
  | attribute (name : Option String) (parts : List Node)
  /-- Anything else, by what is inside it. -/
  | group (parts : List Node)
  deriving Repr

/-- A node with nothing inside it that matters. -/
def Node.leaf : Node := .group []

end Restyle.Script
