import Restyle.Failure

/-!
# Access to files

What the operations of this library need of a file system: reading a text, asking whether
something is at a path, and writing a text. They are written for any monad that offers
this, so the same operation works on the files of the system and on a store of files in
memory (`Restyle.Files.Store`).
-/

namespace Restyle.Files

/-- A monad in which files can be read and written. -/
class Access (m : Type → Type) where
  /-- The text of a file. -/
  read : String → m (Except ReadProblem String)
  /-- Whether anything is at a path. -/
  isThere : String → m Bool
  /-- A file with another text. -/
  write : String → String → m Unit

variable {m : Type → Type} [Monad m] [Access m]

/-- The text of a file, which has to be readable. -/
def readText (path : String) : ExceptT Failure m String := do
  match ← (liftM (Access.read path : m _) : ExceptT Failure m _) with
  | .ok text => pure text
  | .error problem => throw (.read path problem)

/-- Writes a text in place of another where the two differ, and says whether they do. -/
def writeIfChanged (path before after : String) : ExceptT Failure m Bool := do
  if before = after then pure false
  else
    (liftM (Access.write path after : m Unit) : ExceptT Failure m Unit)
    pure true

/-- Writes what becomes of the text of a file, and says whether it changed. -/
def revise (path : String) (change : String → Except Failure String) :
    ExceptT Failure m Bool := do
  let before ← readText path
  let after ← MonadExcept.ofExcept (change before)
  writeIfChanged path before after

/-- The path of a file to work on, if one is given and something is there. -/
def existing? (path : Option String) : ExceptT Failure m (Option String) := do
  match path with
  | none => pure none
  | some path =>
    if ← (liftM (Access.isThere path : m Bool) : ExceptT Failure m Bool) then pure (some path)
    else pure none

end Restyle.Files
