import Restyle.Class.Token
import Restyle.Order.Distinct
import Restyle.Order.Entries
import Restyle.Text.Search

/-!
# Palettes

A component names its colours by what they are for: `bg-background`, `text-primary`. A
palette gives each of these names a shade in light mode and one in dark mode, and
`Restyle.Class.Palette.recolor` writes the shades into a class list: the light class where
the named colour stood and a `dark:` class at the end, so that
`hover:bg-primary/90` becomes `hover:bg-slate-900/90` and `dark:hover:bg-slate-50/90`.

Which utilities carry a colour is decided by what they start with
(`Restyle.Class.colorUtilities`); a name counts when the palette has a light shade for it,
and whatever names no colour of the palette is kept as it stands.
-/

namespace Restyle.Class

/-- The shades that a project uses for each colour name, by mode. -/
structure Palette where
  light : Entries String := []
  dark : Entries String := []
  deriving Repr

/-- The utilities whose text goes on with the name of a colour. -/
def colorUtilities : List String :=
  ["bg-", "text-", "border-", "ring-offset-", "ring-"]

namespace Palette

/-- Whether a palette has no shade at all. -/
def isEmpty (palette : Palette) : Bool :=
  palette.light.isEmpty && palette.dark.isEmpty

/-- The utility and the colour name of a utility that carries a colour of the palette. -/
def namedColor? (palette : Palette) (utility : String) : Option (String × String) :=
  colorUtilities.findSome? fun kind => do
    let name ← Text.stripString? kind utility
    let _ ← palette.light.find? name
    pure (kind, name)

/-- What a class becomes in light mode: the light shade of the colour it names, or the class
itself. -/
def lightClass (palette : Palette) (text : String) : String :=
  let token := Token.ofString text
  match palette.namedColor? token.utility with
  | some (kind, name) => match palette.light.find? name with
    | some shade => (token.withUtility (kind ++ shade)).render
    | none => text
  | none => text

/-- The class that a class adds for dark mode: the dark shade of the colour it names. -/
def darkClass? (palette : Palette) (text : String) : Option String := do
  let token := Token.ofString text
  let (kind, name) ← palette.namedColor? token.utility
  let shade ← palette.dark.find? name
  pure ((token.withUtility (kind ++ shade)).withOuterVariant "dark").render

/-- The first class `border` that stands between two spaces is joined by `border-border`, so
that the colour of the border follows the palette. -/
def colorBorder (text : String) : String :=
  String.ofList
    (Text.replaceFirst " border ".toList " border border-border ".toList text.toList)

/-- A class list in the shades of a palette: the light classes in their order, then the
classes for dark mode. -/
def recolor (palette : Palette) (text : String) : String :=
  let classes := Text.words (colorBorder text)
  Text.unwords
    (firsts (classes.map palette.lightClass) ++ firsts (classes.filterMap palette.darkClass?))

end Palette

end Restyle.Class
