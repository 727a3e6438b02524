import Restyle.Proofs.Css.Finishing
import Restyle.Proofs.Merge.Replay

/-!
# Merging into what was merged

What edits ask for they ask of the outline of a tree. So in a tree with the outline of one
where they were made they change nothing, whatever its layouts and comments
(`Restyle.Merge.makeAll_of_outline`), and such a tree is what is read from the finished text.
-/

namespace Restyle.Merge

open Restyle.Css (Node Place Sheet containerAt? outline valueAt?)

variable {nodes again : List Node}

theorem any_loadsPlugin_of_outline (h : outline false again = outline false nodes) {quoted : String}
    (hloads : nodes.any (Node.loadsPlugin quoted)) : again.any (Node.loadsPlugin quoted) := by
  rw [Css.any_loadsPlugin_iff] at hloads ⊢
  obtain ⟨params, hparams, hany⟩ := hloads
  refine ⟨params, hparams, ?_⟩
  rwa [← Css.any_isAt_outline false, h, Css.any_isAt_outline]

/-- What is there in a tree is there in every tree of its outline. -/
theorem Edit.Holds.of_outline (h : outline false again = outline false nodes) {edit : Edit}
    (hholds : edit.Holds nodes) : edit.Holds again := by
  have hcontainer (path : List Place) :
      (containerAt? path again).map (outline false) =
        (containerAt? path nodes).map (outline false) := by
    rw [← Css.containerAt?_outline false, ← Css.containerAt?_outline false, h]
  cases edit with
  | reach path =>
    rw [Edit.Holds, ← Option.isSome_map (f := outline false)] at hholds ⊢
    rwa [hcontainer]
  | declare path property value =>
    rw [Edit.Holds, ← Css.valueAt?_outline false] at hholds ⊢
    rwa [h]
  | state path name params withBreak =>
    obtain ⟨inner, hinner, hany⟩ := hholds
    have hsame := hcontainer path.places
    rw [hinner, Option.map_some, Option.map_eq_some_iff] at hsame
    obtain ⟨inner', hinner', heq⟩ := hsame
    refine ⟨inner', hinner', ?_⟩
    rwa [← Css.any_isAt_outline false, heq, Css.any_isAt_outline]
  | importSheet params =>
    rw [Edit.Holds, ← Css.any_isAt_outline false] at hholds ⊢
    rwa [h]
  | plugin params => exact any_loadsPlugin_of_outline h hholds

/-- **Edits change nothing in a tree with the outline of one where they were made.** -/
theorem makeAll_of_outline {edits : List Edit}
    (h : outline false again = outline false (makeAll edits nodes)) :
    makeAll edits again = again := by
  refine makeAll_eq_self (fun edit hedit => (holds_makeAll hedit nodes).of_outline h) ?_
  intro places property value hlast
  rw [← Css.valueAt?_outline false, h, Css.valueAt?_outline]
  exact valueAt?_makeAll hlast nodes

/-- Finishing a text, on lists of characters. -/
theorem toList_finishedText (sheet : Sheet) :
    (finishedText sheet).toList = Text.trimEnd (Css.collapseBlankLines
      (Css.stripBreakMarkers sheet.render)).toList := by
  rw [finishedText, String.toList_ofList]

/-- A finished text that is read with an outline is finished already. -/
theorem finishedText_of_render {sheet again : Sheet} {nodes : List Node}
    (hreads : Css.ReadsAs (finishedText sheet).toList nodes)
    (hrender : again.render = finishedText sheet) : finishedText again = finishedText sheet := by
  rw [← String.toList_inj, toList_finishedText, hrender]
  have hmarkers := hreads.removeAll_eq_self
  rw [Css.markerText_eq] at hmarkers
  rw [Css.collapseBlankLines, Css.stripBreakMarkers, String.toList_ofList, String.toList_ofList,
    hmarkers, toList_finishedText, Css.collapseBlankLines, String.toList_ofList,
    ← Text.trimEnd_collapseBlankLines, Text.collapseBlankLines_collapseBlankLines,
    Text.trimEnd_trimEnd]

/-- **Merging again into a finished text** gives the same text, if the merged tree is read from
it again. -/
theorem mergeIntoText_finishedText {rules : Entries Json.Value} {sheet : Sheet}
    (hfailure : (planRules rules).failure = none)
    (hreads : Css.ReadsAs (finishedText (mergeRules rules sheet).1).toList
      (outline false (mergeRules rules sheet).1.nodes)) :
    mergeIntoText rules (finishedText (mergeRules rules sheet).1) =
      .ok (finishedText (mergeRules rules sheet).1) := by
  obtain ⟨again, hagain, houtline, hlost⟩ := hreads.ofString
  have hmade : makeAll (planRules rules).edits again.nodes = again.nodes :=
    makeAll_of_outline houtline
  have hmerged : mergeRules rules again = (again, none) := by
    rw [mergeRules, hmade, hfailure]
  rw [mergeIntoText, hagain]
  simp only [hmerged]
  rw [finishedText_of_render hreads (Css.render_of_lostNodes hagain hlost)]

end Restyle.Merge
