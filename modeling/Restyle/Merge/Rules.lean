import Restyle.Css.Printer
import Restyle.Merge.Plan

/-!
# Merging rules

`Restyle.Merge.Edit.make` makes one edit of a plan, and `Restyle.Merge.mergeRules` makes a
whole plan. `Restyle.Merge.mergeIntoText` is the same on the text of a style sheet; it
writes the outcome without break markers, with one blank line where there were more, and
without blanks at the end.
-/

namespace Restyle.Merge

open Restyle.Css (Node Sheet)

/-- There has to be something at a path: all places on it but the last are entered. -/
def reachPath : Path → List Node → List Node
  | [], nodes => nodes
  | [step], nodes => Css.reach step.place step.withBreak nodes
  | step :: next :: path, nodes =>
    Css.enter step.place step.withBreak (reachPath (next :: path)) nodes

/-- Other nodes at a path. -/
def alongPath (f : List Node → List Node) : Path → List Node → List Node
  | [], nodes => f nodes
  | step :: path, nodes => Css.enter step.place step.withBreak (alongPath f path) nodes

/-- Makes one edit. -/
def Edit.make : Edit → List Node → List Node
  | .reach path, nodes => reachPath path nodes
  | .declare path property value, nodes => alongPath (Css.declare property value) path nodes
  | .state path name params withBreak, nodes =>
    alongPath (Css.ensureStatement name params withBreak) path nodes
  | .importSheet params, nodes => Css.ensureImport params nodes
  | .plugin params, nodes => Css.ensurePlugin params nodes

/-- Makes edits one after the other. -/
def makeAll (edits : List Edit) (nodes : List Node) : List Node :=
  edits.foldl (fun nodes edit => edit.make nodes) nodes

/-- A style sheet with the rules of a description, and why it does not have all of them if
the description does not fit. -/
def mergeRules (rules : Entries Json.Value) (sheet : Sheet) : Sheet × Option Failure :=
  let plan := planRules rules
  ({ sheet with nodes := makeAll plan.edits sheet.nodes }, plan.failure)

/-- The finished text of a style sheet. -/
def finishedText (sheet : Sheet) : String :=
  String.ofList
    (Text.trimEnd (Css.collapseBlankLines (Css.stripBreakMarkers sheet.render)).toList)

/-- The text of a style sheet with the rules of a description. -/
def mergeIntoText (rules : Entries Json.Value) (text : String) : Except Failure String :=
  match Sheet.ofString text with
  | .error error => .error (.style error)
  | .ok sheet =>
    match mergeRules rules sheet with
    | (merged, none) => .ok (finishedText merged)
    | (_, some failure) => .error failure

end Restyle.Merge
