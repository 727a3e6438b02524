import Restyle.Css.Reader

/-!
# Failures

Why an operation on a style sheet, a source file or a project could not be carried out, and
how that is told.
-/

namespace Restyle

/-- Why a file could not be read. -/
inductive ReadProblem where
  | missing
  | directory
  /-- The content is no UTF-8 text. -/
  | notText
  /-- Something else, as the system tells it. -/
  | other (text : String)
  deriving DecidableEq, Repr

/-- How the system tells a problem with a file. -/
def ReadProblem.text : ReadProblem → String
  | missing => "No such file or directory (os error 2)"
  | directory => "Is a directory (os error 21)"
  | notText => "stream did not contain valid UTF-8"
  | other text => text

/-- Why an operation could not be carried out. -/
inductive Failure where
  /-- A text is no style sheet. -/
  | style (error : Css.ReadError)
  /-- A text is no source file of its kind. -/
  | source
  /-- A rule description holds something that is neither a string nor an object. -/
  | leaf (selector property : String)
  /-- There is no palette of this name. -/
  | baseColor (name : String)
  | read (path : String) (problem : ReadProblem)
  /-- A document is no JSON, or does not have the expected members. -/
  | json
  deriving DecidableEq, Repr

/-- How a failure is told. What is wrong inside a source file or a document is not told. -/
def Failure.message : Failure → String
  | style error => error.message
  | source => "failed to parse source"
  | leaf selector property =>
    "invalid value for `" ++ property ++ "` in `" ++ selector ++
      "`: expected a string or an object"
  | baseColor name => "unknown base color `" ++ name ++ "`"
  | read path problem => "failed to read " ++ path ++ ": " ++ problem.text
  | json => "json"

end Restyle
