import Restyle.Proofs.Color.Triple
import Restyle.Proofs.Css.Contents
import Restyle.Proofs.Theme.ExactWrites
import Restyle.Proofs.Theme.Installed
import Restyle.Proofs.Theme.Persistence

/-!
# What an installation leaves in each place

Installing variables writes in three places: the rule of each mode, and in version 4 the inline
theme. What is in them afterwards is known exactly. In the rule of a mode it is what was there
with the variables of the mode assigned (`Restyle.Theme.contentsOf_light_installBy`), and in the
theme what was there with the entries, the mirrors, the animations and the keyframes, one after
the other (`Restyle.Theme.contentsOf_theme_installBy`). The removal of the scaffold comes first,
and it does not matter to it that a variant has been declared.

What is a colour is for a parser to say. Nothing here depends on it, so it is left open:
`Restyle.Theme.installBy` installs variables whatever counts as a colour.
-/

namespace Restyle.Theme

open Restyle.Css (Node Place Strewn containerAt? contentsOf find?)
open Restyle.Project (Settings Version)

variable {overwrite withBreak : Bool} {selector : String} {declarations : List (String × String)}
  {nodes old new : List Node} {selectors : Selectors} {vars : Variables} {place : Place}
  {settings : Settings} {options : Options} {isColor : String → Bool} {version : Version}

/-! ### Whatever counts as a colour -/

/-- The mirrors of one variable, by its name without `--` and a value of it. -/
def mirrorsOfBy (isColor : String → Bool) (bare value : String) : List (String × String) :=
  if bare = "radius" then radiusScale
  else if bare = "sidebar-background" then [("--color-sidebar", "var(--sidebar)")]
  else if Color.IsTriple value ∨ isColor value then
    [("--color-" ++ bare, "var(--" ++ bare ++ ")")]
  else [("--" ++ bare, "var(--" ++ bare ++ ")")]

/-- A value that is not empty, if there is one. -/
def nonempty? (value : Option String) : Option String :=
  value.filter (!·.isEmpty)

/-- The value of light mode decides, unless it is empty. -/
theorem decidingValue?_eq (vars : Variables) (name : String) :
    decidingValue? vars name =
      (nonempty? (vars.light.find? name)).or (nonempty? (vars.dark.find? name)) := by
  have hfilter (value : Option String) :
      value.toList.find? (!·.isEmpty) = nonempty? value := by
    cases value with
    | none => rfl
    | some value => by_cases h : value = "" <;> simp [nonempty?, Option.filter, h]
  rw [decidingValue?, List.find?_append, hfilter, hfilter]

/-- The mirrors of all variables of both modes. -/
def mirrorsBy (isColor : String → Bool) (vars : Variables) : List (String × String) :=
  (modeNames vars).flatMap fun name =>
    match decidingValue? vars name with
    | some value => mirrorsOfBy isColor (bareName name) value
    | none => []

/-- The theme entries and the mirrors of variables in the inline theme. -/
def updateThemeBy (isColor : String → Bool) (overwrite : Bool) (vars : Variables)
    (nodes : List Node) : List Node :=
  if vars.isEmpty then nodes
  else
    Css.enter inlineTheme true
      (fun theme =>
        insertAll (mirrorsBy isColor vars) (vars.theme.foldl (writeThemeEntry overwrite) theme))
      nodes

/-- **The variables of version 4 and the base layer**, installed whatever counts as a colour. -/
def installBy (isColor : String → Bool) (vars : Variables) (settings : Settings)
    (options : Options) (nodes : List Node) : List Node :=
  ensureBaseOf settings (carryOver options.legacy (updateThemeBy isColor options.overwrite vars
    (installModes .v4 options.overwrite (.ofRegistry options.registry) vars
      (cleanUp options (ensureDarkVariant nodes)))))

theorem mirrorsBy_isColorValue (vars : Variables) :
    mirrorsBy Color.isColorValue vars = mirrors vars := by
  have hmirrors (bare value : String) :
      mirrorsOfBy Color.isColorValue bare value = mirrorsOf bare value := by
    simp only [mirrorsOfBy, mirrorsOf, Bool.or_eq_true, Color.isTriple_iff]
  simp only [mirrorsBy, hmirrors]
  rfl

theorem updateThemeBy_isColorValue (overwrite : Bool) (vars : Variables) (nodes : List Node) :
    updateThemeBy Color.isColorValue overwrite vars nodes = updateTheme overwrite vars nodes := by
  rw [updateThemeBy, mirrorsBy_isColorValue, updateTheme]

/-- In version 4, it is the colours of style sheets that count. -/
theorem install_v4 (h : settings.version = .v4) (vars : Variables) (options : Options)
    (nodes : List Node) :
    install vars settings options nodes =
      installBy Color.isColorValue vars settings options nodes := by
  rw [installBy, updateThemeBy_isColorValue]
  unfold install installVariables
  rw [h]
  exact congrArg (fun version => if settings.cssVariables then ensureBase version _ else _) h.symm

/-- In version 3, the scaffold is removed last, and there is no theme. -/
theorem install_v3 (h : settings.version = .v3) (vars : Variables) (options : Options)
    (nodes : List Node) :
    install vars settings options nodes = ensureBaseOf settings (cleanUp options
      (installModes .v3 options.overwrite (.ofRegistry options.registry) vars nodes)) := by
  unfold install installVariables
  rw [h]
  exact congrArg (fun version => if settings.cssVariables then ensureBase version _ else _) h.symm

/-! ### One place -/

/-- Only the first node at a place matters. -/
theorem containerAt?_congr (h : find? place new = find? place old) :
    containerAt? [place] new = containerAt? [place] old := by
  rw [containerAt?_singleton, h, containerAt?_singleton]

/-- What is found at a place is what is in it. -/
theorem contentsOf_of_containerAt? (h : containerAt? [place] new = containerAt? [place] old) :
    contentsOf place new = contentsOf place old := by
  rw [containerAt?_singleton, containerAt?_singleton] at h
  rw [contentsOf, h, contentsOf]

/-! ### The rules of the modes -/

theorem contentsOf_writeRule (overwrite withBreak : Bool) (selector : String)
    (declarations : List (String × String)) (nodes : List Node) :
    contentsOf (.rule selector) (writeRule overwrite withBreak selector declarations nodes) =
      assignAll overwrite declarations (contentsOf (.rule selector) nodes) := by
  unfold writeRule
  split_ifs with hempty
  · rw [List.isEmpty_iff.mp hempty]
    rfl
  · exact Css.contentsOf_enter _ _ _ _

theorem contentsOf_writeRule_of_ne (hne : .rule selector ≠ place) :
    contentsOf place (writeRule overwrite withBreak selector declarations nodes) =
      contentsOf place nodes :=
  Css.contentsOf_congr (find?_writeRule hne)

section Modes

variable (hne : selectors.light ≠ selectors.dark)
include hne

theorem contentsOf_light_writeModes :
    contentsOf (.rule selectors.light)
        (writeModes version overwrite withBreak selectors vars nodes) =
      assignAll overwrite (declarationsFor version vars.light)
        (contentsOf (.rule selectors.light) nodes) := by
  rw [writeModes, contentsOf_writeRule_of_ne (by simpa using Ne.symm hne), contentsOf_writeRule]

theorem contentsOf_dark_writeModes :
    contentsOf (.rule selectors.dark)
        (writeModes version overwrite withBreak selectors vars nodes) =
      assignAll overwrite (declarationsFor version vars.dark)
        (contentsOf (.rule selectors.dark) nodes) := by
  rw [writeModes, contentsOf_writeRule, contentsOf_writeRule_of_ne (by simpa using hne)]

end Modes

theorem contentsOf_writeModes_of_ne (hlight : .rule selectors.light ≠ place)
    (hdark : .rule selectors.dark ≠ place) :
    contentsOf place (writeModes version overwrite withBreak selectors vars nodes) =
      contentsOf place nodes := by
  rw [writeModes, contentsOf_writeRule_of_ne hdark, contentsOf_writeRule_of_ne hlight]

/-- Version 3 writes the rules in the base layer. -/
theorem contentsOf_installModes_v3 (overwrite : Bool) (selectors : Selectors) (vars : Variables)
    (nodes : List Node) :
    contentsOf baseLayer (installModes .v3 overwrite selectors vars nodes) =
      writeModes .v3 overwrite false selectors vars (contentsOf baseLayer nodes) := by
  unfold installModes
  dsimp only
  split_ifs with hempty
  · simp only [Bool.and_eq_true, List.isEmpty_iff] at hempty
    simp [writeModes, writeRule, declarationsFor, hempty]
  · exact Css.contentsOf_enter _ _ _ _

/-! ### The scaffold -/

/-- What is declared with the variant `dark`. -/
def IsOfVariant (node : Node) : Prop :=
  node = Css.breakMarker ∨ node = .statement "custom-variant" darkVariant {}

theorem IsOfVariant.not_isDarkScheme {node : Node} (h : IsOfVariant node) :
    ¬isDarkScheme node := by
  rcases h with rfl | rfl <;> decide

theorem IsOfVariant.not_isRuleOf {node : Node} (h : IsOfVariant node) (selector : String) :
    ¬isRuleOf selector node := by
  rcases h with rfl | rfl <;> simp [isRuleOf, Css.breakMarker, Node.selector?]

theorem IsOfVariant.not_isAt {node : Node} (h : IsOfVariant node)
    (hplace : ∀ params, place ≠ .atRule "custom-variant" params) : ¬place.isAt node := by
  rcases h with rfl | rfl
  · exact Place.not_isAt_of_none rfl rfl
  · have hvariant : (Place.atRule "custom-variant" darkVariant).isAt
        (.statement "custom-variant" darkVariant {}) := by
      simp [Place.isAt, Node.atRule?]
    exact Place.not_isAt_of_ne hvariant (Ne.symm (hplace darkVariant))

theorem strewn_ensureDarkVariant (nodes : List Node) :
    Strewn IsOfVariant nodes (ensureDarkVariant nodes) := by
  unfold ensureDarkVariant
  split_ifs
  · exact .refl _ nodes
  · cases nodes with
    | nil => exact .insert (.inr rfl) .nil
    | cons first rest =>
      refine Css.strewn_insertAt ?_ 1 (first :: rest)
      simp [IsOfVariant]

/-- A container is revised in the same way whatever is strewn around it. -/
theorem strewn_reviseFirst {kind : Node → Prop} (h : Strewn kind old new) {p : Node → Bool}
    (hkind : ∀ node, kind node → ¬p node) (hloosen : ∀ node : Node, p node.loosen = p node)
    (f : List Node → List Node) :
    Strewn kind (Theme.reviseFirst p f old) (Theme.reviseFirst p f new) := by
  induction h with
  | nil => exact .nil
  | insert hnode _ ih =>
    rw [Theme.reviseFirst.eq_def _ _ (_ :: _)]
    simp only [hkind _ hnode]
    exact .insert hnode ih
  | @keep node old new h ih =>
    unfold Theme.reviseFirst
    split_ifs
    · exact h
    · exact .keep h
    · exact .keep ih
  | @loosen node old new h ih =>
    have hchildren : (node.mapChildren f).loosen = node.loosen.mapChildren f := by
      rw [Node.loosen_eq, Node.loosen_eq]
      cases node <;> rfl
    unfold Theme.reviseFirst
    rw [hloosen, Node.children_loosen, ← hchildren]
    split_ifs
    · exact h
    · exact .loosen h
    · exact .loosen ih

theorem isRuleOf_loosen (selector : String) (node : Node) :
    isRuleOf selector node.loosen = isRuleOf selector node := by
  rw [isRuleOf, isRuleOf, node.alike_loosen.selector]

theorem isDarkScheme_loosen (node : Node) : isDarkScheme node.loosen = isDarkScheme node := by
  rw [isDarkScheme, isDarkScheme, node.alike_loosen.atRule]

theorem strewn_removeScaffold (h : Strewn IsOfVariant old new) :
    Strewn IsOfVariant (removeScaffold old) (removeScaffold new) := by
  have hrule {old new : List Node} (selector : String) (f : List Node → List Node)
      (h : Strewn IsOfVariant old new) :
      Strewn IsOfVariant (reviseFirst (isRuleOf selector) f old)
        (reviseFirst (isRuleOf selector) f new) :=
    strewn_reviseFirst h (fun _ hnode => hnode.not_isRuleOf selector) (isRuleOf_loosen selector) f
  exact strewn_reviseFirst (hrule ":root" _ (hrule "body" cleanBody h))
    (fun _ hnode => hnode.not_isDarkScheme) isDarkScheme_loosen removeVariables

/-- **The variant that has been declared does not matter to the removal of the scaffold.** -/
theorem contentsOf_cleanUp_ensureDarkVariant
    (hplace : ∀ params, place ≠ .atRule "custom-variant" params) (options : Options)
    (nodes : List Node) :
    contentsOf place (cleanUp options (ensureDarkVariant nodes)) =
      contentsOf place (cleanUp options nodes) := by
  have hstrewn : Strewn IsOfVariant (cleanUp options nodes)
      (cleanUp options (ensureDarkVariant nodes)) := by
    unfold cleanUp
    split_ifs
    · exact strewn_removeScaffold (strewn_ensureDarkVariant nodes)
    · exact strewn_ensureDarkVariant nodes
  exact hstrewn.contentsOf fun _ hnode => hnode.not_isAt hplace

/-- The scaffold is in rules and under a preference for dark colours. -/
theorem contentsOf_cleanUp {name params : String}
    (hparams : params ≠ "(prefers-color-scheme: dark)")
    (options : Options) (nodes : List Node) :
    contentsOf (.atRule name params) (cleanUp options nodes) =
      contentsOf (.atRule name params) nodes := by
  have hrule (selector : String) (node : Node) (h : isRuleOf selector node) :
      ¬(Place.atRule name params).isAt node := by
    cases node <;> simp_all [isRuleOf, Node.selector?, Place.isAt, Node.atRule?]
  have hscheme (node : Node) (h : isDarkScheme node) : ¬(Place.atRule name params).isAt node := by
    intro hat
    have hfound : node.atRule? = some (name, params) := by simpa [Place.isAt] using hat
    simp [isDarkScheme, hfound, hparams] at h
  refine Css.contentsOf_congr ?_
  unfold cleanUp removeScaffold removeVariables
  split_ifs
  · rw [find?_reviseFirst hscheme, find?_reviseFirst (hrule ":root"),
      find?_reviseFirst (hrule "body")]
  · rfl

/-! ### The theme -/

theorem contentsOf_updateThemeBy (isColor : String → Bool) (overwrite : Bool) (vars : Variables)
    (nodes : List Node) :
    contentsOf inlineTheme (updateThemeBy isColor overwrite vars nodes) =
      insertAll (mirrorsBy isColor vars)
        (vars.theme.foldl (writeThemeEntry overwrite) (contentsOf inlineTheme nodes)) := by
  unfold updateThemeBy
  split_ifs with hempty
  · simp only [Variables.isEmpty, Bool.and_eq_true, List.isEmpty_iff] at hempty
    obtain ⟨⟨htheme, hlight⟩, hdark⟩ := hempty
    have hnames : modeNames vars = [] := by
      rw [modeNames, hlight, hdark]
      rfl
    rw [mirrorsBy, hnames, htheme]
    rfl
  · exact Css.contentsOf_enter _ _ _ _

theorem contentsOf_updateThemeBy_of_ne (hne : inlineTheme ≠ place) :
    contentsOf place (updateThemeBy isColor overwrite vars nodes) = contentsOf place nodes := by
  unfold updateThemeBy
  split_ifs
  · rfl
  · exact Css.contentsOf_enter_of_ne hne _ _ _

/-! ### What is carried over -/

/-- The animations to carry over, as declarations. -/
def animationsOf (legacy : Option Legacy) : List (String × String) :=
  match legacy with
  | some legacy => legacy.animation.map fun (name, value) => ("--animate-" ++ name, value)
  | none => []

/-- The keyframes to carry over. -/
def keyframesOf (legacy : Option Legacy) : Entries (Entries (Entries String)) :=
  match legacy with
  | some legacy => legacy.keyframes
  | none => []

/-- A plugin, and what sets it off. -/
def IsOfPlugin (node : Node) : Prop :=
  node = Css.breakMarker ∨ ∃ params, node = .statement "plugin" params {}

theorem containerAt?_ensurePlugin (hplace : ∀ params, place ≠ .atRule "plugin" params)
    (params : String) (nodes : List Node) :
    containerAt? [place] (Css.ensurePlugin params nodes) = containerAt? [place] nodes := by
  have hkind (node : Node) (h : IsOfPlugin node) : ¬place.isAt node := by
    rcases h with rfl | ⟨params, rfl⟩
    · exact Place.not_isAt_of_none rfl rfl
    · have hplugin : (Place.atRule "plugin" params).isAt (.statement "plugin" params {}) := by
        simp [Place.isAt, Node.atRule?]
      exact Place.not_isAt_of_ne hplugin (Ne.symm (hplace params))
  have hstrewn : Strewn IsOfPlugin nodes (Css.ensurePlugin params nodes) := by
    rw [Css.ensurePlugin_eq]
    split_ifs
    · exact .refl _ nodes
    · split <;> exact Css.strewn_insertAt (by simp [IsOfPlugin]) _ nodes
  rw [containerAt?_singleton, hstrewn.children_find? hkind, containerAt?_singleton]

theorem containerAt?_migratePlugins (hplace : ∀ params, place ≠ .atRule "plugin" params)
    (plugins : List String) (nodes : List Node) :
    containerAt? [place] (migratePlugins plugins nodes) = containerAt? [place] nodes := by
  unfold migratePlugins
  generalize quoteOf nodes = quote
  induction plugins generalizing nodes with
  | nil => rfl
  | cons plugin rest ih => exact (ih _).trans (containerAt?_ensurePlugin hplace _ nodes)

theorem contentsOf_carryOver (legacy : Option Legacy) (nodes : List Node) :
    contentsOf inlineTheme (carryOver legacy nodes) =
      addKeyframes (keyframesOf legacy)
        (insertAll (animationsOf legacy) (contentsOf inlineTheme nodes)) := by
  cases legacy with
  | none => rfl
  | some legacy =>
    have hplugins : contentsOf inlineTheme (migratePlugins legacy.plugins nodes) =
        contentsOf inlineTheme nodes :=
      contentsOf_of_containerAt?
        (containerAt?_migratePlugins (by simp [inlineTheme]) legacy.plugins nodes)
    have hanimations (nodes : List Node) :
        contentsOf inlineTheme (migrateAnimations legacy.animation nodes) =
          insertAll (animationsOf (some legacy)) (contentsOf inlineTheme nodes) := by
      unfold migrateAnimations
      split_ifs with hempty
      · rw [animationsOf, List.isEmpty_iff.mp hempty]
        rfl
      · exact Css.contentsOf_enter _ _ _ _
    have hkeyframes (nodes : List Node) :
        contentsOf inlineTheme (migrateKeyframes legacy.keyframes nodes) =
          addKeyframes legacy.keyframes (contentsOf inlineTheme nodes) := by
      unfold migrateKeyframes
      split_ifs with hempty
      · rw [List.isEmpty_iff.mp hempty]
        rfl
      · exact Css.contentsOf_enter _ _ _ _
    rw [carryOver, migrate, hkeyframes, hanimations, hplugins, keyframesOf]

theorem containerAt?_carryOver_of_ne (hplugin : ∀ params, place ≠ .atRule "plugin" params)
    (htheme : inlineTheme ≠ place) (legacy : Option Legacy) (nodes : List Node) :
    containerAt? [place] (carryOver legacy nodes) = containerAt? [place] nodes := by
  cases legacy with
  | none => rfl
  | some legacy =>
    have hanimations (nodes : List Node) :
        containerAt? [place] (migrateAnimations legacy.animation nodes) =
          containerAt? [place] nodes := by
      unfold migrateAnimations
      split_ifs
      · rfl
      · exact containerAt?_congr (Css.find?_enter_of_ne htheme _ _ _)
    have hkeyframes (nodes : List Node) :
        containerAt? [place] (migrateKeyframes legacy.keyframes nodes) =
          containerAt? [place] nodes := by
      unfold migrateKeyframes
      split_ifs
      · rfl
      · exact containerAt?_congr (Css.find?_enter_of_ne htheme _ _ _)
    rw [carryOver, migrate, hkeyframes, hanimations, containerAt?_migratePlugins hplugin]

theorem contentsOf_ensureBaseOf (hne : place ≠ baseLayer) (settings : Settings)
    (nodes : List Node) :
    contentsOf place (ensureBaseOf settings nodes) = contentsOf place nodes := by
  unfold ensureBaseOf
  split_ifs
  · exact Css.contentsOf_congr (find?_ensureBase hne settings.version)
  · rfl

/-! ### Everything -/

/-- Nothing but the modes is written in a rule. -/
theorem contentsOf_rule_installBy (isColor : String → Bool) (vars : Variables)
    (settings : Settings) (options : Options) (selector : String) (nodes : List Node) :
    contentsOf (.rule selector) (installBy isColor vars settings options nodes) =
      contentsOf (.rule selector) (writeModes .v4 options.overwrite true
        (.ofRegistry options.registry) vars (cleanUp options (ensureDarkVariant nodes))) := by
  unfold installBy
  rw [contentsOf_ensureBaseOf (by simp [baseLayer]),
    contentsOf_of_containerAt? (containerAt?_carryOver_of_ne (by simp) (by simp [inlineTheme]) _ _),
    contentsOf_updateThemeBy_of_ne (by simp [inlineTheme])]
  rfl

/-- **The rule of light mode** holds what was left of it, with the variables assigned. -/
theorem contentsOf_light_installBy (isColor : String → Bool) (vars : Variables)
    (settings : Settings) (options : Options) (nodes : List Node) :
    contentsOf (.rule (Selectors.ofRegistry options.registry).light)
        (installBy isColor vars settings options nodes) =
      assignAll options.overwrite (declarationsFor .v4 vars.light)
        (contentsOf (.rule (Selectors.ofRegistry options.registry).light)
          (cleanUp options nodes)) := by
  rw [contentsOf_rule_installBy, contentsOf_light_writeModes (Selectors.light_ne_dark _),
    contentsOf_cleanUp_ensureDarkVariant (by simp)]

/-- **So does the rule of dark mode.** -/
theorem contentsOf_dark_installBy (isColor : String → Bool) (vars : Variables)
    (settings : Settings) (options : Options) (nodes : List Node) :
    contentsOf (.rule (Selectors.ofRegistry options.registry).dark)
        (installBy isColor vars settings options nodes) =
      assignAll options.overwrite (declarationsFor .v4 vars.dark)
        (contentsOf (.rule (Selectors.ofRegistry options.registry).dark)
          (cleanUp options nodes)) := by
  rw [contentsOf_rule_installBy, contentsOf_dark_writeModes (Selectors.light_ne_dark _),
    contentsOf_cleanUp_ensureDarkVariant (by simp)]

/-- **The theme** holds what it held, the entries, the mirrors, the animations and the
keyframes. -/
theorem contentsOf_theme_installBy (isColor : String → Bool) (vars : Variables)
    (settings : Settings) (options : Options) (nodes : List Node) :
    contentsOf inlineTheme (installBy isColor vars settings options nodes) =
      addKeyframes (keyframesOf options.legacy) (insertAll (animationsOf options.legacy)
        (insertAll (mirrorsBy isColor vars)
          (vars.theme.foldl (writeThemeEntry options.overwrite)
            (contentsOf inlineTheme nodes)))) := by
  have hmodes (nodes : List Node) :
      contentsOf inlineTheme (installModes .v4 options.overwrite (.ofRegistry options.registry)
        vars nodes) = contentsOf inlineTheme nodes :=
    contentsOf_writeModes_of_ne (by simp [inlineTheme]) (by simp [inlineTheme])
  unfold installBy
  rw [contentsOf_ensureBaseOf (by simp [inlineTheme, baseLayer]), contentsOf_carryOver,
    contentsOf_updateThemeBy, hmodes, contentsOf_cleanUp_ensureDarkVariant (by simp [inlineTheme]),
    inlineTheme, contentsOf_cleanUp (by decide)]

end Restyle.Theme
