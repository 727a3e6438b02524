import Restyle.Command.Request
import Restyle.Project.Installation
import Restyle.Project.Loading

/-!
# Carrying out a request

A request is carried out on files, and its outcome is what to print and how the program
ends: with 0 if all went well, with 1 if something could not be done, with 2 if the
arguments did not fit. Files that were written before something failed stay as written.
-/

namespace Restyle.Command

open Restyle.Files (Access)

variable {m : Type → Type} [Monad m] [Access m]

/-- The lines that were printed, and what went wrong. -/
structure Outcome where
  lines : List String := []
  failure : Option Failure := none
  deriving DecidableEq, Repr

/-- How the program ends. -/
def Outcome.status (outcome : Outcome) : Nat :=
  if outcome.failure.isSome then 1 else 0

/-- What is printed. -/
def Outcome.output (outcome : Outcome) : String :=
  String.join (outcome.lines.map (· ++ "\n"))

/-- How a failure is told at the end. -/
def Outcome.complaint (outcome : Outcome) : String :=
  match outcome.failure with
  | some failure => "Error: " ++ failure.message ++ "\n"
  | none => ""

/-- Adapts files one after the other, up to one that fails. -/
def adaptFiles (settings : Project.Settings) (palette : Option Class.Palette)
    (scope : Script.Scope) : List String → m Outcome
  | [] => pure {}
  | file :: files => do
    match ← (Project.adaptFile file settings palette scope).run with
    | .error failure => pure { failure := some failure }
    | .ok changed =>
      let outcome ← adaptFiles settings palette scope files
      pure (if changed then { outcome with lines := ("Rewrote " ++ file) :: outcome.lines }
        else outcome)

/-- Installs an item, and says whether it changed anything. -/
def installFromFiles (settings item : String) (options : Theme.Options)
    (stylesheet : Option String) : ExceptT Failure m Bool := do
  let settings ← Project.loadSettings settings
  let item ← Project.loadItem item
  Project.installItem item { settings with css := stylesheet.or settings.css } options

/-- The settings and the palette for adapting source files. -/
def loadForAdapting (settings : String) (palette : Option String) :
    ExceptT Failure m (Project.Settings × Option Class.Palette) := do
  let settings ← Project.loadSettings settings
  match palette with
  | some path => return (settings, some (← Project.loadPalette path))
  | none => return (settings, ← MonadExcept.ofExcept settings.palette?)

/-- Carries out a request. -/
def Request.run : Request → m Outcome
  | .install settings item registry overwrite cleanup stylesheet => do
    match ← (installFromFiles settings item { registry, overwrite, cleanup } stylesheet).run with
    | .error failure => pure { failure := some failure }
    | .ok true => pure { lines := ["Updated stylesheet."] }
    | .ok false => pure { lines := ["Stylesheet already up to date."] }
  | .adapt settings palette scope files => do
    match ← (loadForAdapting settings palette).run with
    | .error failure => pure { failure := some failure }
    | .ok (settings, palette) => adaptFiles settings palette scope files

end Restyle.Command
