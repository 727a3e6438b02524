import Restyle.Command.Run

/-!
# The program

The command line on the files of the system. This is the only module that acts: it reads and
writes files for the operations of the library, prints what they have to say, and ends with
their status.
-/

namespace Restyle

open Restyle.Files (Access)

/-- Why the system did not read a file. -/
def ReadProblem.ofError : IO.Error → ReadProblem
  | .noFileOrDirectory .. => .missing
  | .inappropriateType .. => .directory
  | error => .other (toString error)

/-- The text of a file of the system. -/
def readSystemFile (path : String) : IO (Except ReadProblem String) := do
  match ← (IO.FS.readBinFile path).toBaseIO with
  | .ok bytes =>
    match String.fromUTF8? bytes with
    | some text => pure (.ok text)
    | none => pure (.error .notText)
  | .error error => pure (.error (.ofError error))

instance : Access IO where
  read := readSystemFile
  isThere path := do
    match ← readSystemFile path with
    | .error .missing => pure false
    | _ => pure true
  write path text := IO.FS.writeFile path text

/-- How the program is used. -/
def usage : String :=
  "Usage:\n" ++
    "  css --config FILE --item FILE [--registry NAME] [--overwrite true|false]\n" ++
    "      [--cleanup-next] [--css FILE]\n" ++
    "  source --config FILE [--palette FILE] [--class-attributes] FILE...\n"

end Restyle

open Restyle.Command in
/-- Does what the arguments ask for. -/
def main (arguments : List String) : IO UInt32 := do
  match Request.ofArguments arguments with
  | .help =>
    IO.print Restyle.usage
    return 0
  | .rejected =>
    IO.eprint Restyle.usage
    return 2
  | .read request =>
    let outcome : Outcome ← request.run
    IO.print outcome.output
    IO.eprint outcome.complaint
    return outcome.status.toUInt32
