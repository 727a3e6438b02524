import Restyle.Files.Access
import Restyle.Files.Path
import Restyle.Project.Document

/-!
# Loading documents

The documents of a project from their files. A style sheet that settings name by a relative
path is looked for beside the file of the settings.
-/

namespace Restyle.Project

open Restyle.Files (Access)
open Restyle.Json (Value)

variable {m : Type → Type} [Monad m] [Access m]

/-- What a file holds, by a reader for its document. -/
def loadDocument {α : Type} (read? : Value → Option α) (path : String) :
    ExceptT Failure m α := do
  let text ← Files.readText path
  match (Value.ofText? text).bind read? with
  | some found => pure found
  | none => throw .json

/-- Settings with the path of their style sheet seen from where their file is. -/
def Settings.seenFrom (path : String) (settings : Settings) : Settings :=
  { settings with css := settings.css.map (Files.joinPath (Files.directoryOf path)) }

/-- The settings in a file. -/
def loadSettings (path : String) : ExceptT Failure m Settings := do
  return (← loadDocument Settings.ofJson? path).seenFrom path

/-- The palette in a file. -/
def loadPalette (path : String) : ExceptT Failure m Class.Palette :=
  loadDocument paletteOfJson? path

/-- The registry item in a file. -/
def loadItem (path : String) : ExceptT Failure m Item :=
  loadDocument Item.ofJson? path

/-- The palette of the base colour that settings name. -/
def Settings.palette? (settings : Settings) : Except Failure (Option Class.Palette) :=
  match settings.baseColor with
  | none => .ok none
  | some name =>
    match basePalette? name with
    | some palette => .ok (some palette)
    | none => .error (.baseColor name)

end Restyle.Project
