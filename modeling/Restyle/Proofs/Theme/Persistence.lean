import Restyle.Proofs.Css.Persistence
import Restyle.Proofs.Theme.Settled
import Restyle.Theme.Install

/-!
# Installing variables damages nothing

Whatever the style sheet, the variables and the options, if only the scaffold is not to be
removed: installing variables keeps every node that was there, at every level
(`Restyle.Theme.nodesPersist_install`). The one thing that may change in them is the value of a
declaration, and only where the variables are written (`Restyle.Theme.InstallWrites`): where
values may be replaced at all, the first declaration of a variable in the rule of its mode, or
of an entry in the theme. Mirrors, what is carried over from an older configuration and the base
layer replace nothing.

Each step of an installation is taken by itself; its edits are those of
`Restyle.Proofs.Css.Persistence`.
-/

namespace Restyle.Theme

open Restyle.Css (Node NodesPersist Place Writes)
open Restyle.Project (Settings Version)

variable {writes : Writes} {overwrite withBreak : Bool} {selector : String}
  {declarations : List (String × String)} {vars : Variables}

/-! ### Declarations -/

theorem nodesPersist_assignAll
    (hwrite : overwrite → ∀ declaration ∈ declarations, writes [] declaration.1 declaration.2)
    (nodes : List Node) :
    NodesPersist writes [] nodes (assignAll overwrite declarations nodes) :=
  Css.nodesPersist_foldl
    (fun declaration hmem => Css.nodesPersist_assign fun h => hwrite h declaration hmem) nodes

theorem nodesPersist_insertAll (declarations : List (String × String)) (nodes : List Node) :
    NodesPersist writes [] nodes (insertAll declarations nodes) :=
  Css.nodesPersist_foldl
    (fun declaration _ => Css.nodesPersist_insertProperty declaration.1 declaration.2) nodes

theorem nodesPersist_writeThemeEntries {entries : Entries String}
    (hwrite : overwrite → ∀ declaration ∈ themeDeclarations entries,
      writes [] declaration.1 declaration.2) (nodes : List Node) :
    NodesPersist writes [] nodes (entries.foldl (writeThemeEntry overwrite) nodes) := by
  rw [foldl_writeThemeEntry]
  refine Css.nodesPersist_foldl (fun declaration hmem nodes => ?_) nodes
  unfold writeEntry
  split_ifs
  · exact Css.nodesPersist_assign (fun h => hwrite h declaration hmem) nodes
  · exact Css.nodesPersist_insertProperty _ _ nodes

/-! ### The steps of an installation -/

theorem nodesPersist_writeRule (hwrite : overwrite → ∀ declaration ∈ declarations,
      writes [.rule selector] declaration.1 declaration.2) (nodes : List Node) :
    NodesPersist writes [] nodes (writeRule overwrite withBreak selector declarations nodes) :=
  (Css.nodesPersist_enter withBreak (nodesPersist_assignAll hwrite) nodes).otherwise

/-- Where a version keeps the variables of a mode. -/
def modePath : Version → (selector : String) → List Place
  | .v3, selector => [.atRule "layer" "base", .rule selector]
  | .v4, selector => [.rule selector]

/-- **What installing variables may write**: the values of variables into the rules of their
modes, and entries into the theme. -/
inductive InstallWrites (vars : Variables) (settings : Settings) (options : Options) : Writes
  | light {property value} : options.overwrite →
      (property, value) ∈ declarationsFor settings.version vars.light →
      InstallWrites vars settings options
        (modePath settings.version (Selectors.ofRegistry options.registry).light) property value
  | dark {property value} : options.overwrite →
      (property, value) ∈ declarationsFor settings.version vars.dark →
      InstallWrites vars settings options
        (modePath settings.version (Selectors.ofRegistry options.registry).dark) property value
  | theme {property value} : options.overwrite → settings.version = .v4 →
      (property, value) ∈ themeDeclarations vars.theme →
      InstallWrites vars settings options [inlineTheme] property value

variable {settings : Settings} {options : Options}

theorem nodesPersist_installModes (nodes : List Node) :
    NodesPersist (InstallWrites vars settings options) [] nodes
      (installModes settings.version options.overwrite (.ofRegistry options.registry) vars
        nodes) := by
  have hlight : options.overwrite → ∀ declaration ∈ declarationsFor settings.version vars.light,
      InstallWrites vars settings options
        (modePath settings.version (Selectors.ofRegistry options.registry).light)
        declaration.1 declaration.2 := fun h _ => .light h
  have hdark : options.overwrite → ∀ declaration ∈ declarationsFor settings.version vars.dark,
      InstallWrites vars settings options
        (modePath settings.version (Selectors.ofRegistry options.registry).dark)
        declaration.1 declaration.2 := fun h _ => .dark h
  unfold installModes
  cases hversion : settings.version with
  | v3 =>
    rw [hversion] at hlight hdark
    exact (Css.nodesPersist_enter true (fun layer =>
      (nodesPersist_writeRule hlight layer).andThen
        (nodesPersist_writeRule hdark _)) nodes).otherwise
  | v4 =>
    rw [hversion] at hlight hdark
    exact (nodesPersist_writeRule hlight nodes).andThen (nodesPersist_writeRule hdark _)

theorem nodesPersist_updateTheme (hwrite : overwrite → ∀ declaration ∈ themeDeclarations vars.theme,
      writes [inlineTheme] declaration.1 declaration.2) (nodes : List Node) :
    NodesPersist writes [] nodes (updateTheme overwrite vars nodes) :=
  (Css.nodesPersist_enter true (fun theme =>
    (nodesPersist_writeThemeEntries hwrite theme).andThen (nodesPersist_insertAll _ _))
      nodes).otherwise

/-- The variant `dark` goes behind the first node. -/
theorem nodesPersist_ensureDarkVariant (nodes : List Node) :
    NodesPersist writes [] nodes (ensureDarkVariant nodes) := by
  unfold ensureDarkVariant
  split_ifs with hany
  · exact .refl writes [] nodes
  · cases nodes with
    | nil => exact .added
    | cons first rest =>
      have hnot : ∀ other ∈ first :: rest,
          ¬(Place.atRule "custom-variant" darkVariant).isAt other := by
        intro other hother hat
        have hrule : other.atRule? = some ("custom-variant", darkVariant) := by
          simpa [Place.isAt] using hat
        exact hany (List.any_eq_true.mpr ⟨other, hother, by simp [Node.isAtRuleNamed, hrule]⟩)
      have hgrows : Css.SheetGrows writes false [] (first :: rest) (Css.insertAt 1
          [Css.breakMarker, .statement "custom-variant" darkVariant {}] (first :: rest)) :=
        Css.sheetGrows_insertStatement hnot (by simp) 1
      exact hgrows.persist

theorem nodesPersist_migratePlugins (plugins : List String) (nodes : List Node) :
    NodesPersist writes [] nodes (migratePlugins plugins nodes) :=
  Css.nodesPersist_foldl (fun _ _ nodes => (Css.sheetGrows_ensurePlugin _ nodes).persist) nodes

theorem nodesPersist_migrateAnimations (animation : Entries String) (nodes : List Node) :
    NodesPersist writes [] nodes (migrateAnimations animation nodes) :=
  (Css.nodesPersist_enter true (nodesPersist_insertAll _) nodes).otherwise

/-- The keyframes of the theme, where they are missing. -/
def addKeyframes (keyframes : Entries (Entries (Entries String))) (theme : List Node) :
    List Node :=
  keyframes.foldl (fun theme (name, steps) =>
    if theme.any (Place.atRule "keyframes" name).isAt then theme
    else Css.push true (keyframesNode name steps) theme) theme

theorem nodesPersist_addKeyframes (keyframes : Entries (Entries (Entries String)))
    (theme : List Node) : NodesPersist writes [] theme (addKeyframes keyframes theme) := by
  refine Css.nodesPersist_foldl (fun entry _ nodes => ?_) theme
  exact (Css.nodesGrow_push true (keyframesNode entry.1 entry.2) nodes).persist.otherwise

theorem nodesPersist_migrateKeyframes (keyframes : Entries (Entries (Entries String)))
    (nodes : List Node) : NodesPersist writes [] nodes (migrateKeyframes keyframes nodes) :=
  (Css.nodesPersist_enter true (nodesPersist_addKeyframes keyframes) nodes).otherwise

/-- **What is carried over replaces nothing.** -/
theorem nodesPersist_migrate (legacy : Legacy) (nodes : List Node) :
    NodesPersist writes [] nodes (migrate legacy nodes) :=
  ((nodesPersist_migratePlugins legacy.plugins nodes).andThen
    (nodesPersist_migrateAnimations legacy.animation _)).andThen
      (nodesPersist_migrateKeyframes legacy.keyframes _)

theorem nodesPersist_ensureBase (version : Version) (nodes : List Node) :
    NodesPersist writes [] nodes (ensureBase version nodes) :=
  (Css.nodesGrow_push true (newBase version) nodes).persist.otherwise

/-! ### The whole installation -/

/-- What there is to carry over, carried over. -/
def carryOver (legacy : Option Legacy) (nodes : List Node) : List Node :=
  match legacy with
  | some legacy => migrate legacy nodes
  | none => nodes

/-- The base layer, where a project has one. -/
def ensureBaseOf (settings : Settings) (nodes : List Node) : List Node :=
  if settings.cssVariables then ensureBase settings.version nodes else nodes

/-- The steps of an installation that does not remove the scaffold. -/
theorem install_steps (vars : Variables) (settings : Settings) (options : Options)
    (nodes : List Node) :
    install vars settings { options with cleanup := false } nodes =
      ensureBaseOf settings (match settings.version with
        | .v3 => installModes .v3 options.overwrite (.ofRegistry options.registry) vars nodes
        | .v4 => carryOver options.legacy (updateTheme options.overwrite vars
            (installModes .v4 options.overwrite (.ofRegistry options.registry) vars
              (ensureDarkVariant nodes)))) := by
  unfold install installVariables ensureBaseOf
  cases settings.version <;> rfl

theorem nodesPersist_carryOver (legacy : Option Legacy) (nodes : List Node) :
    NodesPersist writes [] nodes (carryOver legacy nodes) := by
  cases legacy with
  | none => exact .refl writes [] nodes
  | some legacy => exact nodesPersist_migrate legacy nodes

theorem nodesPersist_ensureBaseOf (settings : Settings) (nodes : List Node) :
    NodesPersist writes [] nodes (ensureBaseOf settings nodes) := by
  unfold ensureBaseOf
  split_ifs
  · exact nodesPersist_ensureBase settings.version nodes
  · exact .refl writes [] nodes

/-- **Installing variables damages nothing**, if the scaffold is not removed: whatever was there
is there, in its order and layout, and only values that are written may be others. -/
theorem nodesPersist_install (vars : Variables) (settings : Settings) (options : Options)
    (nodes : List Node) :
    NodesPersist (InstallWrites vars settings options) [] nodes
      (install vars settings { options with cleanup := false } nodes) := by
  have hmodes (nodes : List Node) :
      NodesPersist (InstallWrites vars settings options) [] nodes
        (installModes settings.version options.overwrite (.ofRegistry options.registry) vars
          nodes) :=
    nodesPersist_installModes nodes
  rw [install_steps]
  refine NodesPersist.andThen ?_ (nodesPersist_ensureBaseOf settings _)
  cases hversion : settings.version with
  | v3 =>
    rw [hversion] at hmodes
    exact hmodes nodes
  | v4 =>
    rw [hversion] at hmodes
    have htheme (nodes : List Node) : NodesPersist (InstallWrites vars settings options) [] nodes
        (updateTheme options.overwrite vars nodes) :=
      nodesPersist_updateTheme (fun h _ => .theme h hversion) nodes
    exact (((nodesPersist_ensureDarkVariant nodes).andThen (hmodes _)).andThen (htheme _)).andThen
      (nodesPersist_carryOver options.legacy _)

end Restyle.Theme
