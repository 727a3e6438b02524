import Restyle.Class.Direction
import Restyle.Class.Prefixed
import Restyle.Project.Settings

/-!
# Adapting class lists to a project

The three transformations of a class list, each of them only where the project asks for it:
the shades of its palette where it does without CSS variables
(`Restyle.Class.adaptColors`), logical directions where it runs from right to left
(`Restyle.Class.adaptDirections`), its prefix where it has one
(`Restyle.Class.adaptPrefix`). `Restyle.Class.adapt` runs them in this order.

Every transformation joins the classes again with single spaces and drops repetitions. A
text in which no class came out different was perhaps no class list at all, so it keeps its
line breaks and its spacing (`Restyle.Class.keepLayout`).
-/

namespace Restyle.Class

open Restyle.Project (Settings)

/-- The set of classes of a text, in order. -/
def classSet (text : String) : List String :=
  firsts (Text.words text)

/-- The transformed text where the classes changed, the text as it was where they did not. -/
def keepLayout (text transformed : String) : String :=
  if classSet text = classSet transformed then text else transformed

/-- The shades of a palette in place of colour names, for a project without CSS variables. -/
def adaptColors (settings : Settings) (palette : Option Palette) (text : String) : String :=
  match palette with
  | some palette =>
    if settings.cssVariables then text else keepLayout text (palette.recolor text)
  | none => text

/-- Logical directions in place of physical ones, for a project that runs both ways. -/
def adaptDirections (settings : Settings) (text : String) : String :=
  if settings.rtl then keepLayout text (redirect text) else text

/-- The project's prefix on every class of what reads as a class list. -/
def adaptPrefix (settings : Settings) (text : String) : String :=
  match settings.activePrefix? with
  | some mark => if looksLikeClassList text then keepLayout text (addPrefix text mark) else text
  | none => text

/-- A class list as the project wants it: colours, then directions, then the prefix. -/
def adapt (settings : Settings) (palette : Option Palette) (text : String) : String :=
  adaptPrefix settings (adaptDirections settings (adaptColors settings palette text))

/-- Whether a project asks for any transformation at all. -/
def hasAdaptations (settings : Settings) (palette : Option Palette) : Bool :=
  (palette.isSome && !settings.cssVariables) || settings.rtl || settings.activePrefix?.isSome

end Restyle.Class
