import Restyle.Proofs.Css.Soundness
import Restyle.Proofs.Merge.Rereading

/-!
# Merging rules twice

Merging a rule description into the outcome of merging it changes nothing, if what is written
is read as what it is: the style sheet is tame, and the nodes that the description adds are
sound (`Restyle.Merge.Edit.IsSound`). Then the first merge keeps the tree clear, so that the
finished text is read with its outline, and there the second one finds everything.

It is not so for all descriptions. A value that is written with a blank in front of it is read
without, and written again.
-/

namespace Restyle.Merge

open Restyle.Css (IsClearBody Node Sheet)

/-! ### Sound edits -/

/-- Each place on a path is read as itself. -/
def Path.IsSound (path : Path) : Prop := ∀ step ∈ path, step.place.alone.IsSound

/-- **What an edit adds is read as itself.** -/
def Edit.IsSound : Edit → Prop
  | .reach path => path.IsSound
  | .declare path property value => path.IsSound ∧ (Css.declarationAlone property value).IsSound
  | .state path name params _ => path.IsSound ∧ (Css.statementAlone name params).IsSound
  | .importSheet params => (Css.statementAlone "import" params).IsSound
  | .plugin params => (Css.statementAlone "plugin" (Css.writtenPlugin params)).IsSound

instance (path : Path) : Decidable path.IsSound :=
  inferInstanceAs (Decidable (∀ _ ∈ _, _))

instance : (edit : Edit) → Decidable edit.IsSound
  | .reach path => inferInstanceAs (Decidable path.IsSound)
  | .declare .. => inferInstanceAs (Decidable (_ ∧ _))
  | .state .. => inferInstanceAs (Decidable (_ ∧ _))
  | .importSheet params => inferInstanceAs (Decidable (Css.statementAlone "import" params).IsSound)
  | .plugin params =>
    inferInstanceAs (Decidable (Css.statementAlone "plugin" (Css.writtenPlugin params)).IsSound)

variable {trail : Option (Option String)} {nodes : List Node}

theorem isClearBody_alongPath {f : List Node → List Node} {path : Path} (hpath : path.IsSound)
    (hf : ∀ trail nodes, IsClearBody trail nodes → IsClearBody trail (f nodes))
    (h : IsClearBody trail nodes) : IsClearBody trail (alongPath f path nodes) := by
  induction path generalizing trail nodes with
  | nil => exact hf trail nodes h
  | cons step path ih =>
    obtain ⟨hstep, hpath⟩ := List.forall_mem_cons.mp hpath
    exact h.enter hstep step.withBreak fun _ _ => ih hpath

theorem isClearBody_reachPath {path : Path} (hpath : path.IsSound) (h : IsClearBody trail nodes) :
    IsClearBody trail (reachPath path nodes) := by
  induction path generalizing trail nodes with
  | nil => exact h
  | cons step path ih =>
    obtain ⟨hstep, hpath⟩ := List.forall_mem_cons.mp hpath
    cases path with
    | nil => exact h.reach hstep step.withBreak
    | cons next path => exact h.enter hstep step.withBreak fun _ _ => ih hpath

/-- **A sound edit keeps a tree clear.** -/
theorem Edit.isClearBody_make {edit : Edit} (hsound : edit.IsSound) (h : IsClearBody trail nodes) :
    IsClearBody trail (edit.make nodes) := by
  cases edit with
  | reach path => exact isClearBody_reachPath hsound h
  | declare path property value =>
    exact isClearBody_alongPath hsound.1 (fun _ _ h => h.declare hsound.2) h
  | state path name params withBreak =>
    exact isClearBody_alongPath hsound.1 (fun _ _ h => h.ensureStatement hsound.2 withBreak) h
  | importSheet params => exact h.ensureImport hsound
  | plugin params => exact h.ensurePlugin hsound

theorem isClearBody_makeAll {edits : List Edit} (hsound : ∀ edit ∈ edits, edit.IsSound)
    (h : IsClearBody trail nodes) : IsClearBody trail (makeAll edits nodes) := by
  induction edits generalizing nodes with
  | nil => exact h
  | cons edit edits ih =>
    obtain ⟨hedit, hedits⟩ := List.forall_mem_cons.mp hsound
    rw [makeAll_cons]
    exact ih hedits (Edit.isClearBody_make hedit h)

/-! ### The second merge -/

/-- **The merged tree is read from the finished text**, if the style sheet is tame and what is
added to it sound. -/
theorem readsAs_finishedText {rules : Entries Json.Value} {css : String} {sheet : Sheet}
    (hread : Sheet.ofString css = .ok sheet)
    (hended : sheet.semicolon = false → Sheet.ofString (css ++ ";") = .ok sheet.ended)
    (htame : Css.areTame sheet.nodes) (hsound : ∀ edit ∈ (planRules rules).edits, edit.IsSound) :
    Css.ReadsAs (finishedText (mergeRules rules sheet).1).toList
      (Css.outline false (mergeRules rules sheet).1.nodes) := by
  obtain ⟨hclear, hafter⟩ := Css.isClearBody_of_ofString hread hended htame
  have hmerged : IsClearBody sheet.openEnd (mergeRules rules sheet).1.nodes :=
    isClearBody_makeAll hsound hclear
  have hlegible : Css.AreLegible (mergeRules rules sheet).1.nodes :=
    Css.areLegible_iff.mpr fun node hnode => (hmerged.clear node hnode).1
  have htame : Css.areTame (mergeRules rules sheet).1.nodes :=
    Css.areTame_iff.mpr fun node hnode => (hmerged.clear node hnode).2
  rw [toList_finishedText]
  exact (Css.Sheet.readsAs_collapsed hlegible htame hafter hmerged.last).trimEnd

/-- **Merging rules into the outcome of merging them changes nothing**, if the style sheet is
tame and what is added to it sound. A last statement without its semicolon has to be one that a
semicolon would end: it must not leave a bracket or a string open. -/
theorem mergeIntoText_mergeIntoText {rules : Entries Json.Value} {css out : String}
    {sheet : Sheet} (hread : Sheet.ofString css = .ok sheet)
    (hended : sheet.semicolon = false → Sheet.ofString (css ++ ";") = .ok sheet.ended)
    (htame : Css.areTame sheet.nodes) (hsound : ∀ edit ∈ (planRules rules).edits, edit.IsSound)
    (hmerge : mergeIntoText rules css = .ok out) : mergeIntoText rules out = .ok out := by
  have hreads := readsAs_finishedText hread hended htame hsound
  rw [mergeIntoText, hread] at hmerge
  cases hfailure : (planRules rules).failure with
  | none =>
    obtain rfl : finishedText (mergeRules rules sheet).1 = out := by
      simpa [mergeRules, hfailure] using hmerge
    exact mergeIntoText_finishedText hfailure hreads
  | some failure => simp [mergeRules, hfailure] at hmerge

theorem mergeIntoText_mergeIntoText_layer :
    let rules : Entries Json.Value :=
      [("@layer base", .object [(".card", .object [("color", .string "red")])])]
    let css := ".b \x7b margin:0 \x7d\n@import \"a\"\n"
    let out :=
      ".b \x7b margin:0 \x7d\n@import \"a\";\n\n" ++
        "@layer base \x7b\n  .card \x7b\n    color: red;\n  \x7d\n\x7d"
    mergeIntoText rules css = .ok out ∧ mergeIntoText rules out = .ok out := by
  intro rules css out
  have hread : Sheet.ofString css = .ok
      ⟨[.rule ".b"
          [.declaration "margin" "0"
            { before := some " ", between := some ":", after := some "" }]
          { before := some "", between := some " ", after := some " ", semicolon := some false },
        .statement "import" "\"a\""
          { before := some "\n", between := some "", afterName := some " " }],
        "\n", false⟩ := by
    decide +kernel
  have hsound : ∀ edit ∈ (planRules rules).edits, edit.IsSound := by decide +kernel
  have hmerge : mergeIntoText rules css = .ok out := by
    rw [mergeIntoText, hread]
    decide +kernel
  have hended : Sheet.ofString (css ++ ";") = .ok
      ⟨[.rule ".b"
          [.declaration "margin" "0"
            { before := some " ", between := some ":", after := some "" }]
          { before := some "", between := some " ", after := some " ", semicolon := some false },
        .statement "import" "\"a\""
          { before := some "\n", between := some "\n", afterName := some " " }],
        "", true⟩ := by
    decide +kernel
  exact ⟨hmerge,
    mergeIntoText_mergeIntoText hread (fun _ => hended) (by decide +kernel) hsound hmerge⟩

/-- **Not every merge is repeated without a change**: a value with a blank in front of it gains
one each time. -/
theorem not_forall_mergeIntoText_mergeIntoText :
    ¬∀ rules css out, mergeIntoText rules css = .ok out → mergeIntoText rules out = .ok out := by
  intro h
  let rules : Entries Json.Value := [(".a", .object [("color", .string " red")])]
  let out := ".a \x7b\n  color:  red;\n\x7d"
  have hfirst : mergeIntoText rules "" = .ok out := by decide +kernel
  have hsecond : mergeIntoText rules out = .ok ".a \x7b\n  color:   red;\n\x7d" := by decide +kernel
  have hagain := h rules "" out hfirst
  rw [hsecond] at hagain
  exact absurd (Except.ok.inj hagain) (by decide)

end Restyle.Merge
