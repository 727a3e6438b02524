import Restyle.Proofs.Css.Finishing
import Restyle.Proofs.Css.Soundness
import Restyle.Proofs.Theme.Installed

/-!
# Installing variables twice

Installing variables into the text that came out of installing them changes nothing, if what is
written is read as what it is (`Restyle.Theme.WritesSound`) and no scaffold is removed.

Removing the scaffold is another matter. Only the first declaration of a kind is removed, so the
next run removes the second one; and in version 4 the variables that the scaffold shares with
the ones to install are removed first and written behind the others afterwards.
-/

namespace Restyle.Theme

open Restyle.Css (IsClearBody Node Place Sheet declarationAlone outline statementAlone)
open Restyle.Project (Settings Version)

variable {vars : Variables} {settings : Settings} {options : Options} {nodes : List Node}
  {trail : Option (Option String)} {declarations : List (String × String)} {version : Version}

/-! ### Sound writes -/

/-- Declarations that are read as themselves. -/
def AreSound (declarations : List (String × String)) : Prop :=
  ∀ declaration ∈ declarations, (declarationAlone declaration.1 declaration.2).IsSound

instance (declarations : List (String × String)) : Decidable (AreSound declarations) :=
  inferInstanceAs (Decidable (∀ _ ∈ _, _))

/-- **What installing writes is read as itself**: the declarations of the variables, and the
selectors of their rules. -/
structure WritesSound (vars : Variables) (settings : Settings) (options : Options) : Prop where
  lightSelector : (Place.rule (Selectors.ofRegistry options.registry).light).alone.IsSound
  darkSelector : (Place.rule (Selectors.ofRegistry options.registry).dark).alone.IsSound
  light : AreSound (declarationsFor settings.version vars.light)
  dark : AreSound (declarationsFor settings.version vars.dark)
  theme : settings.version = .v4 → AreSound (themeDeclarations vars.theme)
  mirrors : settings.version = .v4 → AreSound (mirrors vars)

theorem writesSound_iff : WritesSound vars settings options ↔
    (Place.rule (Selectors.ofRegistry options.registry).light).alone.IsSound ∧
      (Place.rule (Selectors.ofRegistry options.registry).dark).alone.IsSound ∧
      AreSound (declarationsFor settings.version vars.light) ∧
      AreSound (declarationsFor settings.version vars.dark) ∧
      (settings.version = .v4 →
        AreSound (themeDeclarations vars.theme) ∧ AreSound (mirrors vars)) := by
  constructor
  · intro h
    exact ⟨h.lightSelector, h.darkSelector, h.light, h.dark,
      fun hv4 => ⟨h.theme hv4, h.mirrors hv4⟩⟩
  · rintro ⟨hlight, hdark, hlights, hdarks, hv4⟩
    exact ⟨hlight, hdark, hlights, hdarks, fun h => (hv4 h).1, fun h => (hv4 h).2⟩

instance : Decidable (WritesSound vars settings options) := decidable_of_iff' _ writesSound_iff

theorem isSound_baseLayer : baseLayer.alone.IsSound := by
  decide +kernel

theorem isSound_inlineTheme : inlineTheme.alone.IsSound := by
  decide +kernel

theorem isSound_darkVariant : (statementAlone "custom-variant" darkVariant).IsSound := by
  decide +kernel

/-- The rules of the base layer are read as themselves. -/
theorem isSound_of_mem_baseRules {rule : String × String} (h : rule ∈ baseRules version) :
    (Place.rule rule.1).alone.IsSound ∧ (statementAlone "apply" rule.2).IsSound := by
  have hall (version : Version) : ∀ rule ∈ baseRules version,
      (Place.rule rule.1).alone.IsSound ∧ (statementAlone "apply" rule.2).IsSound := by
    cases version <;> decide +kernel
  exact hall version rule h

/-! ### Clear trees -/

theorem isClearBody_assignAll {overwrite : Bool} (hsound : AreSound declarations)
    (h : IsClearBody trail nodes) :
    IsClearBody trail (assignAll overwrite declarations nodes) :=
  h.foldl fun declaration hmem _ h => h.assign (hsound declaration hmem) overwrite

theorem isClearBody_insertAll (hsound : AreSound declarations) (h : IsClearBody trail nodes) :
    IsClearBody trail (insertAll declarations nodes) :=
  h.foldl fun declaration hmem _ h => h.insertProperty (hsound declaration hmem)

theorem isClearBody_writeThemeEntry {overwrite : Bool} {entries : Entries String}
    (hsound : AreSound (themeDeclarations entries)) (h : IsClearBody trail nodes) :
    IsClearBody trail (entries.foldl (writeThemeEntry overwrite) nodes) := by
  rw [foldl_writeThemeEntry]
  refine h.foldl fun declaration hmem nodes h => ?_
  unfold writeEntry
  split_ifs
  · exact h.assign (hsound declaration hmem) overwrite
  · exact h.insertProperty (hsound declaration hmem)

theorem isClearBody_writeRule {overwrite withBreak : Bool} {selector : String}
    (hselector : (Place.rule selector).alone.IsSound) (hsound : AreSound declarations)
    (h : IsClearBody trail nodes) :
    IsClearBody trail (writeRule overwrite withBreak selector declarations nodes) := by
  unfold writeRule
  split_ifs
  · exact h
  · exact h.enter hselector withBreak fun _ _ => isClearBody_assignAll hsound

theorem WritesSound.writeModes (hsound : WritesSound vars settings options) {withBreak : Bool}
    (h : IsClearBody trail nodes) :
    IsClearBody trail (writeModes settings.version options.overwrite withBreak
      (.ofRegistry options.registry) vars nodes) :=
  isClearBody_writeRule hsound.darkSelector hsound.dark
    (isClearBody_writeRule hsound.lightSelector hsound.light h)

theorem WritesSound.installModes (hsound : WritesSound vars settings options)
    (h : IsClearBody trail nodes) :
    IsClearBody trail (installModes settings.version options.overwrite
      (.ofRegistry options.registry) vars nodes) := by
  unfold Theme.installModes
  cases hversion : settings.version with
  | v3 =>
    dsimp only
    split_ifs
    · exact h
    · refine h.enter isSound_baseLayer true fun _ _ h => ?_
      rw [← hversion]
      exact hsound.writeModes h
  | v4 =>
    dsimp only
    rw [← hversion]
    exact hsound.writeModes h

theorem WritesSound.updateTheme (hsound : WritesSound vars settings options)
    (hversion : settings.version = .v4) (h : IsClearBody trail nodes) :
    IsClearBody trail (updateTheme options.overwrite vars nodes) := by
  unfold Theme.updateTheme
  split_ifs
  · exact h
  · exact h.enter isSound_inlineTheme true fun _ _ h =>
      isClearBody_insertAll (hsound.mirrors hversion)
        (isClearBody_writeThemeEntry (hsound.theme hversion) h)

theorem isClearBody_ensureDarkVariant (h : IsClearBody trail nodes) :
    IsClearBody trail (ensureDarkVariant nodes) := by
  have hvariant := Css.isLoose_statement isSound_darkVariant
  unfold ensureDarkVariant
  split_ifs
  · exact h
  · dsimp only
    split
    · exact Css.isClearBody_of_isLoose (by simpa using hvariant)
    · exact h.insertAt (by simp [hvariant, Css.isLoose_breakMarker]) 1

/-- The new base layer is read as itself. -/
theorem isLoose_newBase (version : Version) : (newBase version).IsLoose := by
  have hrules (node : Node) (hnode : node ∈ (newBase version).children) : node.IsLoose := by
    obtain ⟨rule, hrule, rfl⟩ := List.mem_map.mp hnode
    obtain ⟨hselector, happly⟩ := isSound_of_mem_baseRules hrule
    refine (Css.Place.isLoose_fresh hselector).fill (f := fun _ => [_]) (Css.isAt_fresh _)
      fun _ _ _ => ?_
    exact Css.isClearBody_of_isLoose (by simpa using Css.isLoose_statement happly)
  exact (Css.Place.isLoose_fresh isSound_baseLayer).fill (f := fun _ => _) (Css.isAt_fresh _)
    fun _ _ _ => Css.isClearBody_of_isLoose hrules

theorem isClearBody_ensureBase (h : IsClearBody trail nodes) (version : Version) :
    IsClearBody trail (ensureBase version nodes) := by
  unfold ensureBase
  split_ifs
  · exact h
  · exact h.push (isLoose_newBase version) true

/-- **Installing keeps a tree clear**, if nothing is removed. -/
theorem WritesSound.install (hsound : WritesSound vars settings options)
    (hlegacy : options.legacy = none) (hcleanup : options.cleanup = false)
    (h : IsClearBody trail nodes) : IsClearBody trail (install vars settings options nodes) := by
  have hcleaned (nodes : List Node) : cleanUp options nodes = nodes := by
    simp [cleanUp, hcleanup]
  have hvariables : IsClearBody trail (installVariables vars settings options nodes) := by
    unfold installVariables
    cases hversion : settings.version with
    | v3 =>
      simp only [hcleaned]
      rw [← hversion]
      exact hsound.installModes h
    | v4 =>
      simp only [hcleaned, hlegacy]
      refine hsound.updateTheme hversion ?_
      rw [← hversion]
      exact hsound.installModes (isClearBody_ensureDarkVariant h)
  unfold Theme.install
  split_ifs
  · exact isClearBody_ensureBase hvariables _
  · exact hvariables

/-! ### The second run -/

/-- A printed text, finished as the text of a version is. -/
def finish (version : Version) (text : String) : String :=
  match version with
  | .v3 => Css.stripBreakMarkers text
  | .v4 => Css.collapseBlankLines (Css.stripBreakMarkers text)

theorem installIntoText_of_ofString {css : String} {sheet : Sheet}
    (hread : Sheet.ofString css = .ok sheet) :
    installIntoText vars settings options css = .ok (finish settings.version
      (Sheet.render { sheet with nodes := install vars settings options sheet.nodes })) := by
  rw [installIntoText, hread]
  unfold finish
  cases settings.version <;> rfl

/-- A finished text that is read with an outline is finished already. -/
theorem finish_finish {version : Version} {text : String}
    (hreads : Css.ReadsAs (finish version text).toList nodes) :
    finish version (finish version text) = finish version text := by
  have hmarkers : Css.stripBreakMarkers (finish version text) = finish version text := by
    have hremoved := hreads.removeAll_eq_self
    rw [Css.markerText_eq] at hremoved
    rw [Css.stripBreakMarkers, hremoved, String.ofList_toList]
  cases version with
  | v3 => exact hmarkers
  | v4 =>
    rw [finish, hmarkers, finish, Css.collapseBlankLines, Css.collapseBlankLines,
      String.toList_ofList, Text.collapseBlankLines_collapseBlankLines]

theorem readsAs_finish {sheet : Sheet} (version : Version)
    (hclear : IsClearBody sheet.openEnd sheet.nodes) (hafter : Css.IsFiller sheet.after.toList) :
    Css.ReadsAs (finish version sheet.render).toList (outline false sheet.nodes) := by
  have hlegible : Css.AreLegible sheet.nodes :=
    Css.areLegible_iff.mpr fun node hnode => (hclear.clear node hnode).1
  have htame : Css.areTame sheet.nodes :=
    Css.areTame_iff.mpr fun node hnode => (hclear.clear node hnode).2
  cases version with
  | v3 => exact Css.Sheet.readsAs_stripped hlegible htame hafter hclear.last
  | v4 => exact Css.Sheet.readsAs_collapsed hlegible htame hafter hclear.last

/-- **Installing variables into the outcome of installing them changes nothing**, if the style
sheet is tame and what is written to it sound. A last statement without its semicolon has to be
one that a semicolon would end: it must not leave a bracket or a string open. -/
theorem installIntoText_installIntoText {css out : String} {sheet : Sheet}
    (hread : Sheet.ofString css = .ok sheet)
    (hended : sheet.semicolon = false → Sheet.ofString (css ++ ";") = .ok sheet.ended)
    (htame : Css.areTame sheet.nodes) (hsound : WritesSound vars settings options)
    (hlegacy : options.legacy = none) (hcleanup : options.cleanup = false)
    (hinstall : installIntoText vars settings options css = .ok out) :
    installIntoText vars settings options out = .ok out := by
  rw [installIntoText_of_ofString hread, Except.ok.injEq] at hinstall
  obtain ⟨hclear, hafter⟩ := Css.isClearBody_of_ofString hread hended htame
  let installed : Sheet := { sheet with nodes := install vars settings options sheet.nodes }
  have hclear : IsClearBody installed.openEnd installed.nodes :=
    hsound.install hlegacy hcleanup hclear
  have hreads := readsAs_finish settings.version hclear hafter
  rw [hinstall] at hreads
  obtain ⟨again, hagain, houtline, hlost⟩ := hreads.ofString
  have hinstalled : IsInstalled vars settings options again.nodes :=
    (isInstalled_install hlegacy (by simp [hcleanup])).of_outline houtline
  have hsame := hinstalled.install_eq_self hlegacy (by simp [hcleanup])
  rw [installIntoText_of_ofString hagain, hsame, Except.ok.injEq]
  rw [Css.render_of_lostNodes hagain hlost]
  rw [← hinstall] at hreads ⊢
  exact finish_finish hreads

theorem installIntoText_installIntoText_gap :
    let vars : Variables := { light := [("gap", "1px")] }
    let settings : Settings := { cssVariables := false }
    let css := "@import \"a\"\n"
    let out := "@import \"a\";\n\n@layer base \x7b\n  :root \x7b\n    --gap: 1px;\n  \x7d\n\x7d\n"
    installIntoText vars settings {} css = .ok out ∧
      installIntoText vars settings {} out = .ok out := by
  intro vars settings css out
  have hread : Sheet.ofString css = .ok
      ⟨[.statement "import" "\"a\""
          { before := some "", between := some "", afterName := some " " }], "\n", false⟩ := by
    decide +kernel
  have hsound : WritesSound vars settings {} := by decide +kernel
  have hinstall : installIntoText vars settings {} css = .ok out := by decide +kernel
  have hended : Sheet.ofString (css ++ ";") = .ok
      ⟨[.statement "import" "\"a\""
          { before := some "", between := some "\n", afterName := some " " }], "", true⟩ := by
    decide +kernel
  have htame : Css.areTame [.statement "import" "\"a\""
      { before := some "", between := some "", afterName := some " " }] := by
    decide +kernel
  exact ⟨hinstall,
    installIntoText_installIntoText hread (fun _ => hended) htame hsound rfl rfl hinstall⟩

/-- Where the scaffold is removed, a variable that it shares with the ones to install changes
its place. -/
theorem not_forall_installIntoText_installIntoText :
    ¬∀ (vars : Variables) (settings : Settings) (options : Options) (css out : String),
      WritesSound vars settings options → options.legacy = none →
      installIntoText vars settings options css = .ok out →
      installIntoText vars settings options out = .ok out := by
  intro h
  let vars : Variables := { light := [("background", "0"), ("gap", "0")] }
  let settings : Settings := { cssVariables := false, version := .v4 }
  let options : Options := { cleanup := true }
  let out := "@custom-variant dark (&:is(.dark *));\n\n" ++
    ":root \x7b\n  --background: 0;\n  --gap: 0;\n\x7d\n\n" ++
    "@theme inline \x7b\n  --background: var(--background);\n  --gap: var(--gap);\n\x7d"
  have hsound : WritesSound vars settings options := by decide +kernel
  have hfirst : installIntoText vars settings options "" = .ok out := by decide +kernel
  have hagain := h vars settings options "" out hsound rfl hfirst
  revert hagain
  decide +kernel

end Restyle.Theme
