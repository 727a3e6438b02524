import Restyle.Files.Access
import Restyle.Files.Path
import Restyle.Text.Blank

/-!
# Files in memory

A store is a file system in memory: contents at paths below one working directory. A
directory is there because it was put there or because something is in it.
-/

namespace Restyle.Files

/-- What is at a path. -/
inductive Content where
  | text (text : String)
  /-- A file that holds no text. -/
  | binary
  | directory
  deriving DecidableEq, Repr

/-- Contents at paths, each path by its parts. -/
abbrev Store := List (List String × Content)

namespace Store

/-- The parts of a path below the working directory: empty parts and `.` are nothing, and
`..` takes the part in front of it back, which has to be there. -/
def followParts (isThere : List String → Bool) : List String → List String → Option (List String)
  | reversed, [] => some reversed.reverse
  | reversed, part :: parts =>
    if part = "" ∨ part = "." then followParts isThere reversed parts
    else if part = ".." then
      match reversed with
      | [] => none
      | _ :: outer =>
        if isThere reversed.reverse then followParts isThere outer parts else none
    else followParts isThere (part :: reversed) parts

/-- Whether some parts name a directory. -/
def isDirectory (store : Store) (parts : List String) : Bool :=
  parts.isEmpty || store.any fun entry =>
    (entry.1 == parts && entry.2 == .directory) ||
      (parts.isPrefixOf entry.1 && entry.1 != parts)

/-- The parts that a path leads to, if it leads anywhere below the working directory. -/
def resolve? (store : Store) (path : String) : Option (List String) :=
  if path.isEmpty || isAbsolute path then none
  else followParts store.isDirectory []
    ((Text.splitAt (· == '/') path.toList).map String.ofList)

/-- What is at a path. -/
def content? (store : Store) (path : String) : Option Content := do
  let parts ← store.resolve? path
  match store.find? (·.1 == parts) with
  | some (_, content) => some content
  | none => if store.isDirectory parts then some .directory else none

/-- The text of a file. -/
def read (store : Store) (path : String) : Except ReadProblem String :=
  match store.content? path with
  | some (.text text) => .ok text
  | some .binary => .error .notText
  | some .directory => .error .directory
  | none => .error .missing

/-- The store with another text at a path. -/
def write (store : Store) (path text : String) : Store :=
  match store.resolve? path with
  | none => store
  | some parts =>
    if store.any (·.1 == parts) then
      store.map fun entry => if entry.1 == parts then (parts, .text text) else entry
    else store ++ [(parts, .text text)]

end Store

instance : Access (StateM Store) where
  read path := do return (← get).read path
  isThere path := do return ((← get).content? path).isSome
  write path text := modify (·.write path text)

end Restyle.Files
