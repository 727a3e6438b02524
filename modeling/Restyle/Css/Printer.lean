import Restyle.Css.Tree
import Restyle.Text.BlankLines
import Restyle.Text.Search

/-!
# Printing style sheets

`Restyle.Css.Sheet.render` writes a tree down. A slot of a layout that was read is written
as it was read. Where nothing was read, a node goes on a line of its own, two spaces deeper
than the node it is in; a property is followed by a colon and a space, an opening brace
preceded by a space, and every declaration ends with a semicolon.

The last node of a container ends with a semicolon only if the container says so; all
others always do.
-/

namespace Restyle.Css

/-- White space in front of a line at some depth. -/
def indentation (depth : Nat) : String :=
  "".pushn ' ' (2 * depth)

/-- What stands in front of a node that was not read: a new line, except at the very
start. -/
def defaultBefore (depth index : Nat) : String :=
  if depth = 0 ∧ index = 0 then "" else "\n" ++ indentation depth

mutual

/-- One node, without what stands in front of it. A node that is not the last of its kind
of container ends with a semicolon. -/
def Node.render (depth : Nat) (terminated : Bool) : Node → String
  | .comment text _ => "/*" ++ text ++ "*/"
  | .declaration property value layout =>
    property ++ layout.between.getD ": " ++ value ++
      (if terminated then layout.after.getD "" ++ ";" else "")
  | .statement name params layout =>
    "@" ++ name ++ (if params.isEmpty then "" else layout.afterName.getD " " ++ params) ++
      (if terminated then layout.between.getD "" ++ ";" else "")
  | .block name params nodes layout =>
    "@" ++ name ++ (if params.isEmpty then "" else layout.afterName.getD " " ++ params) ++
      layout.between.getD " " ++ "\x7b" ++
      renderNodes (depth + 1) 0 (layout.semicolon.getD true) nodes ++
      layout.after.getD ("\n" ++ indentation depth) ++ "\x7d"
  | .rule selector nodes layout =>
    selector ++ layout.between.getD " " ++ "\x7b" ++
      renderNodes (depth + 1) 0 (layout.semicolon.getD true) nodes ++
      layout.after.getD ("\n" ++ indentation depth) ++ "\x7d"

/-- Nodes one after the other, the first of them being number `index` of its container. -/
def renderNodes (depth index : Nat) (semicolon : Bool) : List Node → String
  | [] => ""
  | node :: rest =>
    node.layout.before.getD (defaultBefore depth index) ++
      node.render depth (!rest.isEmpty || semicolon) ++
      renderNodes depth (index + 1) semicolon rest

end

/-- The text of a style sheet. -/
def Sheet.render (sheet : Sheet) : String :=
  renderNodes 0 0 sheet.semicolon sheet.nodes ++ sheet.after

/-! ### The finished text -/

/-- A printed text without its break markers; the white space around them stays. -/
def stripBreakMarkers (text : String) : String :=
  String.ofList
    (Text.removeAll ("/*" ++ breakMarkerText ++ "*/").toList text.toList)

/-- A printed text with one blank line for each run of blank lines. -/
def collapseBlankLines (text : String) : String :=
  String.ofList (Text.collapseBlankLines text.toList)

end Restyle.Css
