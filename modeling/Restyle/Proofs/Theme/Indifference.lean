import Restyle.Proofs.Merge.Indifference
import Restyle.Proofs.Theme.Installed

/-!
# Installing does not look at layouts

Installing variables adds and removes nodes by many tests: whether a base layer is complete,
which quotes the first node has, which declarations are those of the scaffold, whether a container
is left without nodes. None of them looks at layouts, so that every step of an installation is
indifferent to them, the removal of the scaffold included.

Formatting then has no influence on what is merged and installed
(`Restyle.Theme.outline_merge_install`): in two style sheets that differ in their layouts only, the
same is found wrong with a rule description, and what comes out differs in layouts only.
-/

namespace Restyle.Theme

open Restyle.Css (IsIndifferent Node Sheet outline)
open Restyle.Project (Settings Version)

variable {nodes : List Node} {f : List Node → List Node} {p : Node → Bool}

/-! ### The variables -/

theorem isIndifferent_assignAll (overwrite : Bool) (declarations : List (String × String)) :
    IsIndifferent (assignAll overwrite declarations) :=
  .foldl fun declaration _ => Css.isIndifferent_assign overwrite declaration.1 declaration.2

theorem isIndifferent_writeRule (overwrite withBreak : Bool) (selector : String)
    (declarations : List (String × String)) :
    IsIndifferent (writeRule overwrite withBreak selector declarations) :=
  (Css.isIndifferent_enter (isIndifferent_assignAll overwrite declarations) _ withBreak).otherwise

theorem isIndifferent_writeModes (version : Version) (overwrite withBreak : Bool)
    (selectors : Selectors) (vars : Variables) :
    IsIndifferent (writeModes version overwrite withBreak selectors vars) :=
  (isIndifferent_writeRule _ _ _ _).comp (isIndifferent_writeRule _ _ _ _)

theorem isIndifferent_installModes (version : Version) (overwrite : Bool) (selectors : Selectors)
    (vars : Variables) : IsIndifferent (installModes version overwrite selectors vars) := by
  cases version with
  | v3 =>
    exact (Css.isIndifferent_enter (isIndifferent_writeModes _ _ _ _ _) baseLayer true).otherwise
  | v4 => exact isIndifferent_writeModes _ _ _ _ _

/-! ### The theme -/

theorem isIndifferent_insertAll (declarations : List (String × String)) :
    IsIndifferent (insertAll declarations) :=
  .foldl fun declaration _ => Css.isIndifferent_insertProperty declaration.1 declaration.2

theorem isIndifferent_writeThemeEntry (overwrite : Bool) (entry : String × String) :
    IsIndifferent fun nodes => writeThemeEntry overwrite nodes entry := by
  intro nodes
  dsimp only [writeThemeEntry]
  rw [Css.isDeclared_outline_true]
  split_ifs
  · exact Css.isIndifferent_assign overwrite _ entry.2 nodes
  · exact Css.isIndifferent_insertProperty _ entry.2 nodes

theorem isIndifferent_updateTheme (overwrite : Bool) (vars : Variables) :
    IsIndifferent (updateTheme overwrite vars) := by
  have hentries : IsIndifferent fun theme => vars.theme.foldl (writeThemeEntry overwrite) theme :=
    .foldl fun entry _ => isIndifferent_writeThemeEntry overwrite entry
  exact (Css.isIndifferent_enter ((isIndifferent_insertAll (mirrors vars)).comp hentries)
    inlineTheme true).otherwise

/-! ### What is carried over -/

/-- The quotes of a style sheet are in the texts of its first node. -/
theorem quoteOf_outline (nodes : List Node) : quoteOf (outline true nodes) = quoteOf nodes := by
  rw [quoteOf, quoteOf, Css.outline_true]
  cases nodes with
  | nil => rfl
  | cons node rest => cases node <;> rfl

theorem isIndifferent_migratePlugins (plugins : List String) :
    IsIndifferent (migratePlugins plugins) := by
  intro nodes
  rw [migratePlugins, migratePlugins, quoteOf_outline]
  exact IsIndifferent.foldl (fun plugin _ => Css.isIndifferent_ensurePlugin _) nodes

theorem isIndifferent_migrateAnimations (animation : Entries String) :
    IsIndifferent (migrateAnimations animation) :=
  (Css.isIndifferent_enter (isIndifferent_insertAll _) inlineTheme true).otherwise

/-- A new keyframe animation has no layouts, since it is edited together from nothing. -/
theorem bare_keyframesNode (name : String) (steps : Entries (Entries String)) :
    (keyframesNode name steps).bare = keyframesNode name steps := by
  have hsteps : IsIndifferent fun nodes => steps.foldl (fun nodes entry =>
      Css.enter (.rule entry.1) false (fun rule => entry.2.foldl
        (fun rule declaration => Css.declare declaration.1 declaration.2 rule) rule) nodes) nodes :=
    .foldl fun entry _ => Css.isIndifferent_enter
      (.foldl fun declaration _ => Css.isIndifferent_declare declaration.1 declaration.2) _ false
  exact congrArg (Node.block "keyframes" name · {}) (hsteps [])

theorem isIndifferent_migrateKeyframes (keyframes : Entries (Entries (Entries String))) :
    IsIndifferent (migrateKeyframes keyframes) := by
  refine (Css.isIndifferent_enter (.foldl fun entry _ => ?_) inlineTheme true).otherwise
  exact (Css.isIndifferent_push (bare_keyframesNode entry.1 entry.2) true).unlessAny fun node =>
    node.alike_bare.isAt _

theorem isIndifferent_migrate (legacy : Legacy) : IsIndifferent (migrate legacy) :=
  (isIndifferent_migrateKeyframes legacy.keyframes).comp
    ((isIndifferent_migrateAnimations legacy.animation).comp
      (isIndifferent_migratePlugins legacy.plugins))

/-! ### The variant and the base layer -/

theorem isIndifferent_ensureDarkVariant : IsIndifferent ensureDarkVariant := by
  refine IsIndifferent.unlessAny (fun nodes => ?_) fun node => node.alike_bare.isAtRuleNamed _
  have hnew : ∀ node ∈ [Css.breakMarker, .statement "custom-variant" darkVariant {}],
      node.bare = node := by simp
  have hinsert := Css.isIndifferent_insertAt hnew 1 nodes
  rw [Css.outline_true, Css.outline_true nodes] at hinsert ⊢
  cases nodes with
  | nil => rfl
  | cons node rest => exact hinsert

theorem isIndifferent_ensureBase (version : Version) : IsIndifferent (ensureBase version) := by
  have hbase : (newBase version).bare = newBase version := by cases version <;> rfl
  refine (Css.isIndifferent_push hbase true).unlessAny fun node => ?_
  -- the test is known on the outline of a list; here the list has one node
  have hoff := isCompleteBase_outline true version node
  have hone : node.outline true = [node.bare] := by cases node <;> rfl
  rwa [hone, List.any_cons, List.any_nil, Bool.or_false] at hoff

/-! ### The scaffold -/

theorem isIndifferent_removeFirst (hp : ∀ node : Node, p node.bare = p node) :
    IsIndifferent (removeFirst p) := by
  intro nodes
  rw [Css.outline_true, Css.outline_true]
  induction nodes with
  | nil => rfl
  | cons node rest ih =>
    rw [List.map_cons, removeFirst, removeFirst, hp]
    split_ifs
    · rfl
    · rw [List.map_cons, ih]

theorem isIndifferent_filter (hp : ∀ node : Node, p node.bare = p node) :
    IsIndifferent fun nodes => nodes.filter p := by
  intro nodes
  dsimp only
  rw [Css.outline_true, Css.outline_true, List.filter_map]
  exact congrArg _ (List.filter_congr fun node _ => (hp node).symm)

/-- A container is revised, or removed when nothing is left in it. -/
theorem isIndifferent_reviseFirst (hp : ∀ node : Node, p node.bare = p node)
    (hf : IsIndifferent f) : IsIndifferent (reviseFirst p f) := by
  have hmap (node : Node) : (node.mapChildren f).bare = node.bare.mapChildren f := by
    cases node with
    | rule selector nodes layout => exact congrArg (Node.rule selector · {}) (hf nodes)
    | block name params nodes layout => exact congrArg (Node.block name params · {}) (hf nodes)
    | statement name params layout => exact congrArg (Node.block name params · {}) (hf [])
    | _ => rfl
  intro nodes
  rw [Css.outline_true, Css.outline_true]
  induction nodes with
  | nil => rfl
  | cons node rest ih =>
    have hempty : (f node.bare.children).isEmpty = (f node.children).isEmpty := by
      rw [node.children_bare, ← hf, Css.isEmpty_outline_true]
    rw [List.map_cons, reviseFirst, reviseFirst, hp, hempty]
    split_ifs
    · rfl
    · rw [List.map_cons, hmap]
    · rw [List.map_cons, ih]

theorem isRuleOf_bare (selector : String) (node : Node) :
    isRuleOf selector node.bare = isRuleOf selector node := by
  rw [isRuleOf, isRuleOf, node.alike_bare.selector]

theorem isIndifferent_cleanBody : IsIndifferent cleanBody := by
  have hcolor (node : Node) : isScaffoldColor node.bare = isScaffoldColor node := by
    rw [isScaffoldColor, node.declaration?_bare, isScaffoldColor]
  have hbackground (node : Node) : isScaffoldBackground node.bare = isScaffoldBackground node := by
    rw [isScaffoldBackground, node.declaration?_bare, isScaffoldBackground]
  have hfont (node : Node) : isScaffoldFont node.bare = isScaffoldFont node := by
    rw [isScaffoldFont, node.declaration?_bare, isScaffoldFont]
  exact (isIndifferent_removeFirst hfont).comp
    ((isIndifferent_removeFirst hbackground).comp (isIndifferent_removeFirst hcolor))

theorem isIndifferent_removeVariables : IsIndifferent removeVariables := by
  refine isIndifferent_reviseFirst (isRuleOf_bare ":root") (isIndifferent_filter fun node => ?_)
  rw [isScaffoldVariable, node.alike_bare.declares, node.alike_bare.declares, isScaffoldVariable]

/-- **The scaffold is told by what it is**, not by how it is laid out. -/
theorem isIndifferent_removeScaffold : IsIndifferent removeScaffold := by
  have hscheme (node : Node) : isDarkScheme node.bare = isDarkScheme node := by
    rw [isDarkScheme, node.alike_bare.atRule, isDarkScheme]
  exact (isIndifferent_reviseFirst hscheme isIndifferent_removeVariables).comp
    (isIndifferent_removeVariables.comp
      (isIndifferent_reviseFirst (isRuleOf_bare "body") isIndifferent_cleanBody))

theorem isIndifferent_cleanUp (options : Options) : IsIndifferent (cleanUp options) := by
  intro nodes
  unfold cleanUp
  split_ifs
  · exact isIndifferent_removeScaffold nodes
  · rfl

/-! ### The whole installation -/

theorem isIndifferent_installVariables (vars : Variables) (settings : Settings)
    (options : Options) : IsIndifferent (installVariables vars settings options) := by
  have hmodes (version : Version) := isIndifferent_installModes version options.overwrite
    (.ofRegistry options.registry) vars
  intro nodes
  unfold installVariables
  cases settings.version with
  | v3 => exact ((isIndifferent_cleanUp options).comp (hmodes .v3)) nodes
  | v4 =>
    have hinstalled := (isIndifferent_updateTheme options.overwrite vars).comp
      ((hmodes .v4).comp ((isIndifferent_cleanUp options).comp isIndifferent_ensureDarkVariant))
    cases options.legacy with
    | none => exact hinstalled nodes
    | some legacy => exact ((isIndifferent_migrate legacy).comp hinstalled) nodes

theorem isIndifferent_install (vars : Variables) (settings : Settings) (options : Options) :
    IsIndifferent (install vars settings options) := by
  intro nodes
  unfold install
  dsimp only
  split_ifs
  · exact ((isIndifferent_ensureBase settings.version).comp
      (isIndifferent_installVariables vars settings options)) nodes
  · exact isIndifferent_installVariables vars settings options nodes

/-- **Formatting has no influence** on what is merged and installed. Into style sheets that differ
in their layouts, in what stands behind the last node and in the last semicolon only, a rule
description is merged with the same success or the same failure, and the trees differ in their
layouts only, as they do when variables are installed. -/
theorem outline_merge_install {sheet other : Sheet}
    (h : outline true sheet.nodes = outline true other.nodes) (rules : Entries Json.Value)
    (vars : Variables) (settings : Settings) (options : Options) :
    (Merge.mergeRules rules sheet).2 = (Merge.mergeRules rules other).2 ∧
      outline true (Merge.mergeRules rules sheet).1.nodes =
        outline true (Merge.mergeRules rules other).1.nodes ∧
      outline true (install vars settings options sheet.nodes) =
        outline true (install vars settings options other.nodes) :=
  ⟨rfl, (Merge.isIndifferent_makeAll _).outline_eq h,
    (isIndifferent_install vars settings options).outline_eq h⟩

/-- A style sheet with its scaffold in one line, and with each declaration in a line of its own. -/
theorem outline_merge_install_lines :
    let line : Css.Layout := { before := some "\n  ", between := some ": " }
    let sheet : Sheet :=
      { nodes := [.statement "import" "'tailwindcss'" {}, .rule ":root"
          [.declaration "--background" "#fff" {}, .declaration "--gap" "4px" {}] {}] }
    let other : Sheet :=
      { nodes := [.statement "import" "'tailwindcss'" {}, .rule ":root"
          [.declaration "--background" "#fff" line, .declaration "--gap" "4px" line]
          { before := some "\n\n", after := some "\n", semicolon := some true }]
        after := "\n" }
    let rules : Entries Json.Value :=
      [("@import \"a\"", .object []), (".card", .string "color: red"), ("b", .null)]
    let vars : Variables := { light := [("gap", "8px")] }
    let options : Options := { cleanup := true, legacy := some { plugins := ["forms"] } }
    (Merge.mergeRules rules sheet).2 = (Merge.mergeRules rules other).2 ∧
      outline true (Merge.mergeRules rules sheet).1.nodes =
        outline true (Merge.mergeRules rules other).1.nodes ∧
      outline true (install vars { version := .v4 } options sheet.nodes) =
        outline true (install vars { version := .v4 } options other.nodes) := by
  intro line sheet other rules vars options
  have hnodes : outline true sheet.nodes = outline true other.nodes := rfl
  exact outline_merge_install hnodes rules vars { version := .v4 } options

end Restyle.Theme
