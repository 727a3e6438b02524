import Restyle.Command.Arguments
import Restyle.Script.Literals

/-!
# Requests

What the command line can ask for: to install a registry item into the style sheet of a
project, or to adapt source files. The first argument says which, and the others are read
accordingly.
-/

namespace Restyle.Command

/-- What is asked for. -/
inductive Request where
  /-- The item in a file, installed into the style sheet of a project or another one. -/
  | install (settings item : String) (registry : Option String) (overwrite cleanup : Bool)
      (stylesheet : Option String)
  /-- Source files, adapted to a project with its own palette or another one. -/
  | adapt (settings : String) (palette : Option String) (scope : Script.Scope)
      (files : List String)
  deriving DecidableEq, Repr

/-- The arguments for installing. -/
def installShape : Shape :=
  { options :=
      [("config", .path), ("item", .path), ("registry", .text), ("overwrite", .truth),
        ("cleanup-next", .flag), ("css", .path)],
    takesFiles := false }

/-- The arguments for adapting. -/
def adaptShape : Shape :=
  { options := [("config", .path), ("palette", .path), ("class-attributes", .flag)],
    takesFiles := true }

/-- A request to install, if the arguments for it are there. -/
def installRequest? (given : Given) : Option Request := do
  let settings ← given.value? "config"
  let item ← given.value? "item"
  pure (.install settings item (given.value? "registry") (given.value? "overwrite" != some "false")
    (given.has "cleanup-next") (given.value? "css"))

/-- A request to adapt source files, if the arguments for it are there. -/
def adaptRequest? (given : Given) : Option Request := do
  let settings ← given.value? "config"
  if given.files.isEmpty then none
  else
    let scope := if given.has "class-attributes" then Script.Scope.classes else .everywhere
    pure (.adapt settings (given.value? "palette") scope given.files)

/-- A request from the arguments of its command. -/
def requestOf (shape : Shape) (request? : Given → Option Request) (arguments : List String) :
    Reading Request :=
  match readGiven shape {} arguments with
  | .help => .help
  | .rejected => .rejected
  | .read given =>
    match request? given with
    | some request => .read request
    | none => .rejected

/-- What the arguments of the program ask for. -/
def Request.ofArguments : List String → Reading Request
  | "css" :: arguments => requestOf installShape installRequest? arguments
  | "source" :: arguments => requestOf adaptShape adaptRequest? arguments
  | ["help"] => .help
  | ["help", name] => if ["css", "source", "help"].contains name then .help else .rejected
  | first :: _ =>
    match Argument.ofString first with
    | .letters letters => if letters.head? = some 'h' then .help else .rejected
    | .option "help" none => .help
    | _ => .rejected
  | [] => .rejected

end Restyle.Command
