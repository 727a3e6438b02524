import Restyle.Script.Node

/-!
# Literals of a program

Which string literals of a program are taken for class lists: all of them, or only those
that stand where class lists are expected – in an attribute for classes, or anywhere in a
call of one of the helpers that put class lists together. How deep a literal is in such a
place does not matter, and behind the place the rule is as before it.
-/

namespace Restyle.Script

/-- Which literals are taken for class lists. -/
inductive Scope where
  /-- All of them. -/
  | everywhere
  /-- Those where class lists are expected. -/
  | classes
  deriving DecidableEq, Repr

/-- The attributes that hold class lists. -/
def classAttributes : List String := ["className", "class"]

/-- The functions that put class lists together. -/
def classHelpers : List String := ["cn", "clsx", "cva", "cx", "twMerge", "twJoin"]

/-- Whether class lists are expected inside a node. -/
def Node.expectsClasses : Node → Bool
  | .attribute (some name) _ => classAttributes.contains name
  | .call (.identifier name) _ => classHelpers.contains name
  | _ => false

mutual

/-- The literals of a node, where all of them count or only those in a place for classes. -/
def Node.literals (allCount : Bool) : Node → List Literal
  | .literal literal => if allCount then [literal] else []
  | .identifier _ => []
  | .call callee parts =>
    let allCount := allCount || (Node.call callee parts).expectsClasses
    callee.literals allCount ++ literalsOfAll allCount parts
  | .attribute name parts =>
    literalsOfAll (allCount || (Node.attribute name parts).expectsClasses) parts
  | .group parts => literalsOfAll allCount parts

/-- The literals of several nodes. -/
def literalsOfAll (allCount : Bool) : List Node → List Literal
  | [] => []
  | node :: nodes => node.literals allCount ++ literalsOfAll allCount nodes

end

/-- The literals of a program that a scope takes for class lists, in the order of the
text. -/
def Scope.literals (scope : Scope) (program : List Node) : List Literal :=
  (literalsOfAll (scope == .everywhere) program).mergeSort fun a b => a.start ≤ b.start

end Restyle.Script
