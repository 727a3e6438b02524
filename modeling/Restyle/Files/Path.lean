/-!
# Paths

Paths are texts with a slash between their parts. A path is absolute if it starts with a
slash. Nothing here looks at a file system, and no path is shortened before it is shown.
-/

namespace Restyle.Files

/-- Whether a path starts at the root. -/
def isAbsolute (path : String) : Bool :=
  path.toList.head? == some '/'

/-- A path, written backwards, without slashes and parts `.` at its end. -/
def trimReversed : List Char → List Char
  | ['/'] => ['/']
  | '/' :: rest => trimReversed rest
  | '.' :: '/' :: rest => trimReversed ('/' :: rest)
  | path => path

/-- The directory that a file is in: the path without its last part. A path of one part is
in the empty path, which is the working directory. -/
def directoryOf (path : String) : String :=
  let upToSlash := path.toList.reverse.dropWhile (· != '/')
  String.ofList (trimReversed upToSlash).reverse

/-- A path seen from a directory. -/
def joinPath (directory path : String) : String :=
  if isAbsolute path || directory.isEmpty then path
  else if directory.toList.getLast? == some '/' then directory ++ path
  else directory ++ "/" ++ path

/-- The name of a file: the last part of its path. -/
def nameOf (path : String) : List Char :=
  ((trimReversed path.toList.reverse).takeWhile (· != '/')).reverse

/-- What is behind the last dot of a file's name, if there is a dot behind its first
character: the extension of the file. -/
def extensionOf? (path : String) : Option String :=
  let name := nameOf path
  let reversed := name.reverse
  let behind := reversed.takeWhile (· != '.')
  match reversed.dropWhile (· != '.') with
  | _ :: before => if before.isEmpty || name == ['.', '.'] then none
      else some (String.ofList behind.reverse)
  | [] => none

end Restyle.Files
