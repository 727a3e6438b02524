import Restyle.Proofs.Css.Rereading

/-!
# Finishing a text

A printed text is finished by taking out its break markers, collapsing its blank lines and
dropping the blanks at its end, or by some of this. Whatever is done, a tame and legible style
sheet is read from the outcome with the same outline (`Restyle.Css.ReadsAs`), and finishing
the outcome again does nothing.
-/

namespace Restyle.Css

open Reader (Sketch)

variable {cs : List Char} {pieces : List Piece} {nodes : List Node} {k k' : Sketch}

/-! ### Pieces that make no difference -/

theorem steps_filter_isMarker (h : pieces.foldlM (Sketch.step false) k = some k') :
    (pieces.filter (!·.isMarker)).foldlM (Sketch.step false) k = some k' := by
  induction pieces generalizing k with
  | nil => exact h
  | cons p pieces ih =>
    rw [List.foldlM_cons] at h
    obtain ⟨middle, hmiddle, h⟩ := Option.bind_eq_some_iff.mp h
    by_cases hmarker : p.isMarker
    · have hsame : middle = k := by
        cases p with
        | comment text =>
          rw [Sketch.step] at hmiddle
          split_ifs at hmiddle
          simpa [Node.outline] using hmiddle.symm
        | _ => cases hmarker
      rw [List.filter_cons_of_neg (by simpa)]
      exact ih (hsame ▸ h)
    · rw [List.filter_cons_of_pos (by simpa using hmarker), List.foldlM_cons, hmiddle]
      exact ih h

theorem steps_map_collapse (h : pieces.foldlM (Sketch.step false) k = some k') :
    (pieces.map Piece.collapse).foldlM (Sketch.step false) k = some k' := by
  induction pieces generalizing k with
  | nil => exact h
  | cons p pieces ih =>
    rw [List.foldlM_cons] at h
    obtain ⟨middle, hmiddle, h⟩ := Option.bind_eq_some_iff.mp h
    have hsame : Sketch.step false k p.collapse = some middle := by
      rw [← hmiddle]
      cases p <;> rfl
    rw [List.map_cons, List.foldlM_cons, hsame]
    exact ih h

/-! ### Texts that are read with an outline -/

/-- **A text is read with an outline**, and finishing it finds no break marker. -/
def ReadsAs (cs : List Char) (nodes : List Node) : Prop :=
  ∃ pieces, Spaced cs pieces ∧ (∀ p ∈ pieces, p.IsNeat) ∧ (∀ p ∈ pieces, ¬p.isMarker) ∧
    (pieces.foldlM (Sketch.step false) {}).bind Sketch.settle = some { nodes }

theorem Spaced.readsAs (h : Spaced cs pieces) (hneat : ∀ p ∈ pieces, p.IsNeat)
    (hsteps : (pieces.foldlM (Sketch.step false) {}).bind Sketch.settle = some { nodes }) :
    ReadsAs (Text.removeAll markerText cs) nodes := by
  obtain ⟨k, hsteps, hsettle⟩ := Option.bind_eq_some_iff.mp hsteps
  refine ⟨_, h.removeAll hneat, fun p hp => ?_, fun p hp => ?_, ?_⟩
  · exact hneat p (List.mem_filter.mp hp).1
  · simpa using (List.mem_filter.mp hp).2
  · rw [steps_filter_isMarker hsteps]
    exact hsettle

namespace ReadsAs

theorem collapse (h : ReadsAs cs nodes) : ReadsAs (Text.collapseBlankLines cs) nodes := by
  obtain ⟨pieces, hspaced, hneat, hmarker, hsteps⟩ := h
  obtain ⟨k, hsteps, hsettle⟩ := Option.bind_eq_some_iff.mp hsteps
  refine ⟨_, hspaced.collapse hneat, fun p hp => ?_, fun p hp => ?_, ?_⟩
  · obtain ⟨q, hq, rfl⟩ := List.mem_map.mp hp
    exact (hneat q hq).collapse
  · obtain ⟨q, hq, rfl⟩ := List.mem_map.mp hp
    exact Piece.not_isMarker_collapse (hneat q hq) (hmarker q hq)
  · rw [steps_map_collapse hsteps]
    exact hsettle

theorem trimEnd (h : ReadsAs cs nodes) : ReadsAs (Text.trimEnd cs) nodes := by
  obtain ⟨pieces, hspaced, hneat, hmarker, hsteps⟩ := h
  exact ⟨pieces, hspaced.trimEnd hneat, hneat, hmarker, hsteps⟩

theorem removeAll_eq_self (h : ReadsAs cs nodes) : Text.removeAll markerText cs = cs := by
  obtain ⟨pieces, hspaced, hneat, hmarker, -⟩ := h
  exact hspaced.removeAll_eq_self hneat hmarker

theorem ofString {text : String} (h : ReadsAs text.toList nodes) :
    ∃ sheet, Sheet.ofString text = .ok sheet ∧ outline false sheet.nodes = nodes ∧
      lostNodes sheet.nodes = 0 := by
  obtain ⟨pieces, hspaced, -, -, hsteps⟩ := h
  exact ofString_of_spaced hspaced hsteps

end ReadsAs

/-! ### Style sheets -/

namespace Sheet

variable {sheet : Sheet}

/-- **The text of a tame and legible style sheet is read with its outline**, once its break
markers are taken out. -/
theorem readsAs_stripped (hlegible : AreLegible sheet.nodes) (htame : areTame sheet.nodes)
    (hafter : IsFiller sheet.after.toList)
    (hlast : ∀ after ∈ sheet.openEnd, ∀ last ∈ sheet.nodes.getLast?, last.FitsBefore after) :
    ReadsAs (stripBreakMarkers sheet.render).toList (outline false sheet.nodes) := by
  have hslot : IsFillerSlot (some sheet.after) := by
    rintro s ⟨⟩
    exact hafter
  have hwritten : IsWrittenUpTo false _ _ _ :=
    isWrittenUpTo_renderNodes 0 0 sheet.semicolon hslot isGap_nil hlegible fun hsemicolon =>
      hlast _ (mem_openEnd.mpr ⟨hsemicolon, rfl⟩)
  obtain ⟨pieces, hneat, hspaced, hsteps⟩ := hwritten
  have hnothing : StartsMark [] := by simp [StartsMark]
  have hall := hspaced hnothing .nil
  rw [List.append_nil, List.append_nil, Option.getD_some, ← String.toList_append] at hall
  rw [stripBreakMarkers, String.toList_ofList, ← markerText_eq]
  refine Spaced.readsAs hall (hneat htame) ?_
  rw [hsteps {} rfl]
  simp [Sketch.push]

/-- The same text once its blank lines are collapsed. -/
theorem readsAs_collapsed (hlegible : AreLegible sheet.nodes) (htame : areTame sheet.nodes)
    (hafter : IsFiller sheet.after.toList)
    (hlast : ∀ after ∈ sheet.openEnd, ∀ last ∈ sheet.nodes.getLast?, last.FitsBefore after) :
    ReadsAs (collapseBlankLines (stripBreakMarkers sheet.render)).toList
      (outline false sheet.nodes) := by
  rw [collapseBlankLines, String.toList_ofList]
  exact (readsAs_stripped hlegible htame hafter hlast).collapse

end Sheet

end Restyle.Css
