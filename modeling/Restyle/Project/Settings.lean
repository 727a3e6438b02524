import Restyle.Class.BaseColor

/-!
# Project settings

What a project says about its styling: how it uses Tailwind, which classes its components
have to be written in, and where its style sheet is.
-/

namespace Restyle.Project

/-- The Tailwind version whose conventions a style sheet follows. -/
inductive Version where
  /-- Variables live in `@layer base`. -/
  | v3
  /-- Variables live at top level and are offered to utilities by `@theme inline`. -/
  | v4
  deriving DecidableEq, Repr

/-- The styling of a project. The defaults are those of a project that says nothing. -/
structure Settings where
  /-- Colours are named by CSS variables, not by the shades of a palette. -/
  cssVariables : Bool := true
  /-- The project also runs from right to left. -/
  rtl : Bool := false
  /-- What every utility starts with. -/
  utilityPrefix : Option String := none
  /-- The name of the palette that the project is based on. -/
  baseColor : Option String := none
  /-- The path of the project's style sheet. -/
  css : Option String := none
  version : Version := .v3
  deriving DecidableEq, Repr

namespace Settings

/-- The prefix to write, if there is one to write. -/
def activePrefix? (settings : Settings) : Option String :=
  settings.utilityPrefix.filter (!·.isEmpty)

end Settings

end Restyle.Project
