import Restyle.Merge.Rules
import Restyle.Proofs.Css.Indifference

/-!
# Merging rules does not look at layouts

A plan is made whatever the style sheet, and each of its edits is indifferent to layouts, however
deep it is made (`Restyle.Merge.Edit.isIndifferent_make`). So is the plan as a whole.
-/

namespace Restyle.Merge

open Restyle.Css (IsIndifferent Node)

variable {f : List Node → List Node}

theorem isIndifferent_alongPath (hf : IsIndifferent f) (path : Path) :
    IsIndifferent (alongPath f path) := by
  induction path with
  | nil => exact hf
  | cons step path ih => exact Css.isIndifferent_enter ih step.place step.withBreak

theorem isIndifferent_reachPath (path : Path) : IsIndifferent (reachPath path) := by
  induction path with
  | nil => exact .id
  | cons step path ih =>
    cases path with
    | nil => exact Css.isIndifferent_reach step.place step.withBreak
    | cons next path => exact Css.isIndifferent_enter ih step.place step.withBreak

/-- **No edit looks at layouts.** -/
theorem Edit.isIndifferent_make (edit : Edit) : IsIndifferent edit.make := by
  cases edit with
  | reach path => exact isIndifferent_reachPath path
  | declare path property value =>
    exact isIndifferent_alongPath (Css.isIndifferent_declare property value) path
  | state path name params withBreak =>
    exact isIndifferent_alongPath (Css.isIndifferent_ensureStatement name params withBreak) path
  | importSheet params => exact Css.isIndifferent_ensureImport params
  | plugin params => exact Css.isIndifferent_ensurePlugin params

theorem isIndifferent_makeAll (edits : List Edit) : IsIndifferent (makeAll edits) :=
  .foldl fun edit _ => edit.isIndifferent_make

end Restyle.Merge
