import Restyle.Class.Adaptation
import Restyle.Failure
import Restyle.Script.Dialect
import Restyle.Script.Literals
import Restyle.Script.Program

/-!
# Adapting a script

The class lists in a script, adapted to a project. Only the text between the quotes of a
literal is ever replaced (`Restyle.Script.Literal.replaceBody`), and only if the literal
stands for another text afterwards. The literals are taken from the last one to the first
one, so that the places of those that are still to come stay where they are.
-/

namespace Restyle.Script

open Restyle.Project (Settings)

/-- A text with something else between the quotes of a literal. -/
def Literal.replaceBody (literal : Literal) (body text : List Char) : List Char :=
  text.take (literal.start + 1) ++ body ++ text.drop (literal.stop - 1)

/-- How a text is written in a literal: as it is if the literal is raw, with escapes if it is
not. -/
def Literal.bodyOf (literal : Literal) (quote : Char) (value : List Char) : List Char :=
  if literal.isRaw then value else encode quote value

/-- What a literal of a source has between its quotes after a change, blanks at the ends
dropped; nothing if it stands for the same text as before. -/
def Literal.changedBody? (literal : Literal) (change : String → String) (source : List Char) :
    Option (List Char) :=
  let value := Text.trim (change literal.value).toList
  if value = literal.value.toList then none
  else (source.drop literal.start).head?.map fun quote => literal.bodyOf quote value

/-- A source with some of its literals changed. -/
def changeLiterals (change : String → String) (literals : List Literal) (source : List Char) :
    List Char :=
  literals.foldr (fun literal text =>
    match literal.changedBody? change source with
    | some body => literal.replaceBody body text
    | none => text) source

/-- The text of a source file adapted to a project. A file that is not understood is refused,
but only where there is anything to adapt. -/
def adapt (dialect : Dialect) (scope : Scope) (settings : Settings)
    (palette : Option Class.Palette) (text : String) : Except Failure String :=
  if Class.hasAdaptations settings palette then
    match program? dialect text.toList with
    | some program =>
      .ok (String.ofList
        (changeLiterals (Class.adapt settings palette) (scope.literals program) text.toList))
    | none => .error .source
  else .ok text

end Restyle.Script
