import Restyle.Files.Access
import Restyle.Merge.Rules
import Restyle.Project.Item
import Restyle.Script.Adaptation
import Restyle.Theme.Install

/-!
# Installing into files

What a registry item brings, put into the files of a project. A style sheet that is not
named or not there is passed over, and a file is only written where its text changes. Every
operation says whether it wrote a file.

An item is installed in two steps, its variables first and its rules second, and each step
writes for itself (`Restyle.Project.installItem`): where the second one fails, the first one
has been made.
-/

namespace Restyle.Project

open Restyle.Files (Access)

variable {m : Type → Type} [Monad m] [Access m]

/-- Variables in a style sheet. Even without variables it gets its base layer. -/
def updateVariables (path : Option String) (vars : Theme.Variables) (settings : Settings)
    (options : Theme.Options) : ExceptT Failure m Bool := do
  match ← Files.existing? path with
  | none => pure false
  | some path => Files.revise path (Theme.installIntoText vars settings options)

/-- Rules in a style sheet. Without rules the file is not looked at. -/
def updateRules (path : Option String) (rules : Entries Json.Value) : ExceptT Failure m Bool := do
  if rules.isEmpty then pure false
  else
    match ← Files.existing? path with
    | none => pure false
    | some path => Files.revise path (Merge.mergeIntoText rules)

/-- The class lists of a source file, adapted to a project. -/
def adaptFile (path : String) (settings : Settings) (palette : Option Class.Palette)
    (scope : Script.Scope) : ExceptT Failure m Bool :=
  Files.revise path (Script.adapt (.ofPath path) scope settings palette)

/-- All that a registry item brings to the style sheet of a project. An older configuration
to carry over is taken from the item if the options have none. -/
def installItem (item : Item) (settings : Settings) (options : Theme.Options) :
    ExceptT Failure m Bool := do
  let options := { options with legacy := options.legacy.or item.legacy }
  let hasVariables ← updateVariables settings.css (item.vars.getD {}) settings options
  let hasRules ← updateRules settings.css (item.rules.getD [])
  pure (hasVariables || hasRules)

end Restyle.Project
