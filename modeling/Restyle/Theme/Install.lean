import Restyle.Css.Printer
import Restyle.Failure
import Restyle.Theme.Base
import Restyle.Theme.Migration
import Restyle.Theme.Scaffold

/-!
# Installing variables

`Restyle.Theme.install` puts variables into a style sheet by the conventions of a version.
In version 3 they go into `@layer base`. In version 4 they go into rules at top level, each
has a mirror in the inline theme, the variant `dark` is declared, and an older configuration
is carried over. In both, a project that uses CSS variables gets its base layer.

`Restyle.Theme.installIntoText` is the same on the text of a style sheet. The text of a
version 3 style sheet keeps its blank lines as they come out.
-/

namespace Restyle.Theme

open Restyle.Css (Node Sheet)
open Restyle.Project (Settings)

/-- Nodes without the scaffold, where that is asked for. -/
def cleanUp (options : Options) (nodes : List Node) : List Node :=
  if options.cleanup then removeScaffold nodes else nodes

/-- The variables and all that belongs to them, base layer apart, in the nodes of a style
sheet. -/
def installVariables (vars : Variables) (settings : Settings) (options : Options)
    (nodes : List Node) : List Node :=
  let selectors := Selectors.ofRegistry options.registry
  match settings.version with
  | .v3 => cleanUp options (installModes .v3 options.overwrite selectors vars nodes)
  | .v4 =>
    let installed := updateTheme options.overwrite vars
      (installModes .v4 options.overwrite selectors vars
        (cleanUp options (ensureDarkVariant nodes)))
    match options.legacy with
    | some legacy => migrate legacy installed
    | none => installed

/-- The variables and the base layer in the nodes of a style sheet. -/
def install (vars : Variables) (settings : Settings) (options : Options)
    (nodes : List Node) : List Node :=
  let installed := installVariables vars settings options nodes
  if settings.cssVariables then ensureBase settings.version installed else installed

/-- The text of a style sheet with variables installed. -/
def installIntoText (vars : Variables) (settings : Settings) (options : Options)
    (text : String) : Except Failure String :=
  match Sheet.ofString text with
  | .error error => .error (.style error)
  | .ok sheet =>
    let installed := { sheet with nodes := install vars settings options sheet.nodes }
    let written := Css.stripBreakMarkers installed.render
    .ok (match settings.version with
      | .v3 => written
      | .v4 => Css.collapseBlankLines written)

end Restyle.Theme
