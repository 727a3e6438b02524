import Restyle.Project.Settings
import Restyle.Text.Search

/-!
# Custom properties of variables

A variable may be named with or without the leading `--` of the custom property that holds
it. Version 4 knows the background of the sidebar by a shorter name.
-/

namespace Restyle.Theme

open Restyle.Project (Version)

/-- A name without its leading `--`. -/
def bareName (name : String) : String :=
  (Text.stripString? "--" name).getD name

/-- The custom property of a variable. -/
def customProperty (name : String) : String :=
  "--" ++ bareName name

/-- The custom property of a variable in the conventions of a version. -/
def propertyFor (version : Version) (name : String) : String :=
  match version with
  | .v3 => customProperty name
  | .v4 => if bareName name = "sidebar-background" then "--sidebar" else customProperty name

end Restyle.Theme
