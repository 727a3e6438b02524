import Restyle.Merge.Rules
import Restyle.Proofs.Css.Edit

/-!
# Merging rules only adds

Whatever a rule description says, and whether or not it fits, the style sheet grows by it:
nothing that was there is taken away, moved or laid out anew, and the only values that change
are those that the description writes, where a property is declared first
(`Restyle.Merge.sheetGrows_mergeRules`). Each edit of a plan is growth, and growth composes.
-/

namespace Restyle.Merge

open Restyle.Css (Node NodesGrow Place Sheet SheetGrows Writes)

/-! ### What is written -/

/-- The places on a path. -/
def Path.places (path : Path) : List Place :=
  path.map Step.place

/-- The value that an edit writes, and where. -/
def Edit.writes : Edit → Writes
  | .declare path property value => fun places other written =>
    places = path.places ∧ other = property ∧ written = value
  | _ => fun _ _ _ => False

/-- The values that edits write. -/
def writesOf (edits : List Edit) : Writes :=
  fun places property value => ∃ edit ∈ edits, edit.writes places property value

/-! ### Paths -/

/-- Edits at the end of a path let the path grow. -/
theorem nodesGrow_alongPath {f : List Node → List Node} :
    ∀ {writes : Writes} (path : Path),
      (∀ nodes, NodesGrow (fun places => writes (path.places ++ places)) [] nodes (f nodes)) →
      ∀ nodes, NodesGrow writes [] nodes (alongPath f path nodes)
  | _, [], hf, nodes => hf nodes
  | writes, step :: path, hf, nodes =>
    have hrest : ∀ nodes, NodesGrow (fun places => writes (step.place :: places)) [] nodes
        (alongPath f path nodes) :=
      nodesGrow_alongPath path hf
    Css.nodesGrow_enter step.withBreak hrest nodes

theorem nodesGrow_reachPath :
    ∀ {writes : Writes} (path : Path) (nodes : List Node),
      NodesGrow writes [] nodes (reachPath path nodes)
  | writes, [], nodes => NodesGrow.refl writes [] nodes
  | _, [step], nodes => Css.nodesGrow_reach step.place step.withBreak nodes
  | _, step :: next :: path, nodes =>
    Css.nodesGrow_enter step.withBreak (nodesGrow_reachPath (next :: path)) nodes

/-! ### Edits -/

/-- **An edit is growth.** -/
theorem Edit.sheetGrows_make (edit : Edit) (nodes : List Node) :
    SheetGrows edit.writes false [] nodes (edit.make nodes) := by
  cases edit with
  | reach path => exact (nodesGrow_reachPath path nodes).sheetGrows false
  | declare path property value =>
    refine (nodesGrow_alongPath path (fun nodes => ?_) nodes).sheetGrows false
    exact Css.nodesGrow_declare ⟨by simp, rfl, rfl⟩ nodes (by simp)
  | state path name params withBreak =>
    refine (nodesGrow_alongPath path (fun nodes => ?_) nodes).sheetGrows false
    exact Css.nodesGrow_ensureStatement name params withBreak nodes
  | importSheet params => exact Css.sheetGrows_ensureImport params nodes
  | plugin params => exact Css.sheetGrows_ensurePlugin params nodes

/-- **So are edits one after the other.** -/
theorem sheetGrows_makeAll (edits : List Edit) (nodes : List Node) :
    SheetGrows (writesOf edits) false [] nodes (makeAll edits nodes) := by
  induction edits generalizing nodes with
  | nil => exact SheetGrows.refl _ false [] nodes
  | cons edit edits ih =>
    have hfirst : edit.writes.Within (writesOf (edit :: edits)) :=
      fun places property value h => ⟨edit, List.mem_cons_self, h⟩
    have hrest : (writesOf edits).Within (writesOf (edit :: edits)) :=
      fun places property value ⟨other, hother, h⟩ =>
        ⟨other, List.mem_cons_of_mem edit hother, h⟩
    exact (ih (edit.make nodes)).trans hfirst hrest (by simp) (.refl [])
      (edit.sheetGrows_make nodes)

/-! ### Rule descriptions -/

/-- **Merging rules only adds**, also where the description turns out not to fit: the nodes of
the style sheet grow, by the values that the plan writes, and the rest of it stays. -/
theorem sheetGrows_mergeRules (rules : Entries Json.Value) (sheet : Sheet) :
    SheetGrows (writesOf (planRules rules).edits) false [] sheet.nodes
        (mergeRules rules sheet).1.nodes ∧
      (mergeRules rules sheet).1.after = sheet.after ∧
      (mergeRules rules sheet).1.semicolon = sheet.semicolon :=
  ⟨sheetGrows_makeAll (planRules rules).edits sheet.nodes, rfl, rfl⟩

end Restyle.Merge
