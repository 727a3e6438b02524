import Restyle.Class.Palette

/-!
# Base colours

A project is based on one of five greys. The palettes of the five have the same plan –
which of the shades, from `50` to `950`, a colour name stands for in each mode – and differ
only in the grey whose shades they are, so that `Restyle.Class.BaseColor.palette` is one
table for all of them.
-/

namespace Restyle.Class

/-- The greys that a project can be based on. -/
inductive BaseColor where
  | slate | gray | zinc | neutral | stone
  deriving DecidableEq, Repr

namespace BaseColor

/-- All base colours, in the order in which they are offered. -/
def all : List BaseColor := [slate, gray, zinc, neutral, stone]

/-- The name of a base colour, which is also how its shades are called. -/
def name : BaseColor → String
  | slate => "slate"
  | gray => "gray"
  | zinc => "zinc"
  | neutral => "neutral"
  | stone => "stone"

/-- The base colour of a name. -/
def ofName? (text : String) : Option BaseColor :=
  all.find? (·.name = text)

/-- The palette of a base colour. -/
def palette (color : BaseColor) : Palette :=
  let shade (weight : String) := color.name ++ "-" ++ weight
  { light :=
      [("background", "white"), ("foreground", shade "950"),
        ("card", "white"), ("card-foreground", shade "950"),
        ("popover", "white"), ("popover-foreground", shade "950"),
        ("primary", shade "900"), ("primary-foreground", shade "50"),
        ("secondary", shade "100"), ("secondary-foreground", shade "900"),
        ("muted", shade "100"), ("muted-foreground", shade "500"),
        ("accent", shade "100"), ("accent-foreground", shade "900"),
        ("destructive", "red-500"), ("destructive-foreground", shade "50"),
        ("border", shade "200"), ("input", shade "200"), ("ring", shade "950")]
    dark :=
      [("background", shade "950"), ("foreground", shade "50"),
        ("card", shade "950"), ("card-foreground", shade "50"),
        ("popover", shade "950"), ("popover-foreground", shade "50"),
        ("primary", shade "50"), ("primary-foreground", shade "900"),
        ("secondary", shade "800"), ("secondary-foreground", shade "50"),
        ("muted", shade "800"), ("muted-foreground", shade "400"),
        ("accent", shade "800"), ("accent-foreground", shade "50"),
        ("destructive", "red-900"), ("destructive-foreground", shade "50"),
        ("border", shade "800"), ("input", shade "800"), ("ring", shade "300")] }

end BaseColor

end Restyle.Class
