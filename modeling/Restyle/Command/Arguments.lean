import Restyle.Order.Entries

/-!
# Arguments of a command

How arguments are told apart. An option is a name behind two hyphens, with its value behind
an equals sign or as the next argument; each option stands once at most, in any order, and
two hyphens alone end the options. A value that is an argument of its own does not start
with a hyphen, unless it is one alone. Help is given as soon as it is asked for, whatever is
still to come.
-/

namespace Restyle.Command

/-- What an option takes. -/
inductive OptionKind where
  /-- No value. -/
  | flag
  | text
  /-- A path, which is not empty. -/
  | path
  /-- The word `true` or the word `false`. -/
  | truth
  deriving DecidableEq, Repr

/-- Whether a value fits an option. -/
def OptionKind.fits (kind : OptionKind) (value : String) : Bool :=
  match kind with
  | flag => false
  | text => true
  | path => !value.isEmpty
  | truth => value == "true" || value == "false"

/-- What the arguments of a command may be. -/
structure Shape where
  options : List (String × OptionKind)
  /-- Whether files may be named. -/
  takesFiles : Bool

/-- What the arguments of a command are. -/
structure Given where
  /-- The options with their values. -/
  options : Entries String := []
  /-- The files, the last one first. -/
  reversedFiles : List String := []
  deriving DecidableEq, Repr

/-- What comes of reading arguments. -/
inductive Reading (α : Type) where
  | help
  /-- The arguments do not fit. -/
  | rejected
  | read (found : α)
  deriving DecidableEq, Repr

namespace Given

/-- With one option more, which must not have been there. -/
def withOption? (given : Given) (name value : String) : Option Given :=
  if (Entries.find? name given.options).isSome then none
  else some { given with options := given.options ++ [(name, value)] }

/-- With one file more. -/
def withFile? (shape : Shape) (given : Given) (file : String) : Option Given :=
  if shape.takesFiles && !file.isEmpty then
    some { given with reversedFiles := file :: given.reversedFiles }
  else none

/-- The files in their order. -/
def files (given : Given) : List String := given.reversedFiles.reverse

/-- The value of an option. -/
def value? (given : Given) (name : String) : Option String :=
  Entries.find? name given.options

/-- Whether an option is there. -/
def has (given : Given) (name : String) : Bool := (given.value? name).isSome

end Given

/-- What an argument looks like. -/
inductive Argument where
  /-- The end of the options. -/
  | separator
  /-- An option, perhaps with a value of its own. -/
  | option (name : String) (value : Option String)
  /-- Letters behind a single hyphen. -/
  | letters (letters : List Char)
  | plain (text : String)
  deriving DecidableEq, Repr

/-- What an argument looks like. -/
def Argument.ofString (text : String) : Argument :=
  match text.toList with
  | ['-', '-'] => .separator
  | '-' :: '-' :: rest =>
    let name := rest.takeWhile (· != '=')
    .option (String.ofList name)
      (if name.length < rest.length then some (String.ofList (rest.drop (name.length + 1)))
        else none)
  | '-' :: c :: rest => .letters (c :: rest)
  | _ => .plain text

/-- Whether an argument can be the value of the option in front of it. -/
def Argument.isValue : Argument → Bool
  | .plain _ => true
  | _ => false

/-- Reads the arguments of a command. -/
def readGiven (shape : Shape) : Given → List String → Reading Given
  | given, [] => .read given
  | given, text :: rest =>
    match Argument.ofString text with
    | .separator =>
      match rest.foldlM (Given.withFile? shape) given with
      | some given => .read given
      | none => .rejected
    | .letters letters => if letters.head? = some 'h' then .help else .rejected
    | .plain file =>
      match given.withFile? shape file with
      | some given => readGiven shape given rest
      | none => .rejected
    | .option name value =>
      match shape.options.lookup name, value with
      | none, none => if name = "help" then .help else .rejected
      | none, some _ => .rejected
      | some .flag, none =>
        match given.withOption? name "" with
        | some given => readGiven shape given rest
        | none => .rejected
      | some kind, some value =>
        match given.withOption? name value with
        | some given => if kind.fits value then readGiven shape given rest else .rejected
        | none => .rejected
      | some kind, none =>
        match rest with
        | [] => .rejected
        | value :: rest =>
          match given.withOption? name value with
          | some given =>
            if (Argument.ofString value).isValue && kind.fits value then readGiven shape given rest
            else .rejected
          | none => .rejected

end Restyle.Command
