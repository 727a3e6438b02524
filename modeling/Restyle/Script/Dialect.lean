import Restyle.Files.Path
import Restyle.Script.Grammar
import Restyle.Text.Blank

/-!
# Dialects by file names

The name of a file tells in which language its text is written. What tells nothing is read
as the widest language, with types and elements.
-/

namespace Restyle.Script

/-- Whether a file with an extension for types only declares things: the part of its name in
front of the extension is `d`, or, where the extension is `ts`, the part before that one. -/
def namesDeclarations (path extension : String) : Bool :=
  match (Text.splitAt (· == '.') (Files.nameOf path)).reverse with
  | _ :: last :: more => last == ['d'] || (extension == "ts" && more.head? == some ['d'])
  | _ => false

/-- The language of a file. -/
def Dialect.ofPath (path : String) : Dialect :=
  let plain := ["js", "mjs", "cjs"]
  let typed := ["ts", "mts", "cts"]
  match Files.extensionOf? path with
  | some extension =>
    { hasTypes := !plain.contains extension && extension != "jsx",
      hasElements := !plain.contains extension && !typed.contains extension,
      isModule := extension != "cjs" && extension != "cts",
      isDeclaration := typed.contains extension && namesDeclarations path extension }
  | none => { hasTypes := true, hasElements := true, isModule := true, isDeclaration := false }

end Restyle.Script
