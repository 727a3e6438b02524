import Restyle.Proofs.Theme.Settled
import Restyle.Theme.Install

/-!
# Installing variables again

What installing variables asks of a style sheet (`Restyle.Theme.IsInstalled`): the variables are
settled in the rules of their modes and in the theme, the variant `dark` is declared, and there
is a complete base layer. After installing, it is so, since every step leaves alone what the
steps in front of it have written – but for the removal of the scaffold, which may take away a
variant. And where it is so, installing changes nothing, if there is no scaffold to remove.
-/

namespace Restyle.Theme

open Restyle.Css (Node Place containerAt? find? outline)
open Restyle.Project (Settings Version)

variable {overwrite withBreak : Bool} {selector : String} {declarations : List (String × String)}
  {nodes again : List Node} {version : Version} {selectors : Selectors} {vars : Variables}

/-! ### At one place -/

theorem containerAt?_singleton (place : Place) (nodes : List Node) :
    containerAt? [place] nodes = (find? place nodes).map Node.children := by
  cases hfind : find? place nodes <;> simp [containerAt?, hfind]

/-- Nothing changes where an edit finds its place as it leaves it. -/
theorem enter_eq_self {place : Place} {inner : List Node} {f : List Node → List Node}
    (h : containerAt? [place] nodes = some inner) (hf : f inner = inner) (withBreak : Bool) :
    Css.enter place withBreak f nodes = nodes := by
  rw [containerAt?_singleton, Option.map_eq_some_iff] at h
  obtain ⟨node, hnode, rfl⟩ := h
  rw [Css.enter_eq_inside hnode]
  refine Css.inside_eq_self fun other hother => ?_
  obtain rfl : node = other := Option.some.inj (hnode.symm.trans hother)
  exact hf

theorem exists_containerAt?_enter (place : Place) (withBreak : Bool)
    (f : List Node → List Node) (nodes : List Node) :
    ∃ inner, containerAt? [place] (Css.enter place withBreak f nodes) = some (f inner) :=
  Merge.containerAt?_enter place withBreak f [] nodes

/-- A container of the outline is that of the tree, up to its outline. -/
theorem exists_containerAt?_of_outline (h : outline false again = outline false nodes)
    {place : Place}
    {inner : List Node} (hinner : containerAt? [place] nodes = some inner) :
    ∃ inner', containerAt? [place] again = some inner' ∧
      outline false inner' = outline false inner := by
  have hsame := Css.containerAt?_outline false [place] again
  rw [h, Css.containerAt?_outline, hinner, Option.map_some, eq_comm,
    Option.map_eq_some_iff] at hsame
  exact hsame

/-! ### The rule of a mode -/

/-- Declarations are settled in the rule of a selector, if there are any. -/
def SettledIn (overwrite : Bool) (selector : String) (declarations : List (String × String))
    (nodes : List Node) : Prop :=
  declarations = [] ∨
    ∃ inner, containerAt? [.rule selector] nodes = some inner ∧
      Settled overwrite declarations inner

/-- Only the rule of the selector matters. -/
theorem SettledIn.congr (h : SettledIn overwrite selector declarations nodes)
    (hsame : find? (.rule selector) again = find? (.rule selector) nodes) :
    SettledIn overwrite selector declarations again := by
  unfold SettledIn
  rwa [containerAt?_singleton, hsame, ← containerAt?_singleton]

theorem SettledIn.of_outline (h : SettledIn overwrite selector declarations nodes)
    (houtline : outline false again = outline false nodes) :
    SettledIn overwrite selector declarations again := by
  refine h.imp_right ?_
  rintro ⟨inner, hinner, hsettled⟩
  obtain ⟨inner', hinner', hsame⟩ := exists_containerAt?_of_outline houtline hinner
  exact ⟨inner', hinner', hsettled.of_outline hsame⟩

theorem settledIn_writeRule (overwrite withBreak : Bool) (selector : String)
    (declarations : List (String × String)) (nodes : List Node) :
    SettledIn overwrite selector declarations
      (writeRule overwrite withBreak selector declarations nodes) := by
  unfold writeRule
  split_ifs with hempty
  · exact .inl (by simpa using hempty)
  · obtain ⟨inner, hinner⟩ := exists_containerAt?_enter (.rule selector) withBreak
      (assignAll overwrite declarations) nodes
    exact .inr ⟨_, hinner, settled_assignAll overwrite declarations inner⟩

theorem find?_writeRule {place : Place} (hne : .rule selector ≠ place) :
    find? place (writeRule overwrite withBreak selector declarations nodes) =
      find? place nodes := by
  unfold writeRule
  split_ifs
  · rfl
  · exact Css.find?_enter_of_ne hne withBreak _ nodes

theorem SettledIn.writeRule_eq_self (h : SettledIn overwrite selector declarations nodes) :
    writeRule overwrite withBreak selector declarations nodes = nodes := by
  unfold writeRule
  split_ifs with hempty
  · rfl
  · obtain ⟨inner, hinner, hsettled⟩ := h.resolve_left (by simpa using hempty)
    exact enter_eq_self hinner (assignAll_eq_self hsettled) withBreak

/-! ### The modes -/

/-- The variables of both modes are settled in their rules. -/
structure HasRules (version : Version) (overwrite : Bool) (selectors : Selectors)
    (vars : Variables) (nodes : List Node) : Prop where
  light : SettledIn overwrite selectors.light (declarationsFor version vars.light) nodes
  dark : SettledIn overwrite selectors.dark (declarationsFor version vars.dark) nodes

theorem HasRules.of_outline (h : HasRules version overwrite selectors vars nodes)
    (houtline : outline false again = outline false nodes) :
    HasRules version overwrite selectors vars again :=
  ⟨h.light.of_outline houtline, h.dark.of_outline houtline⟩

/-- The rules of both modes are different. -/
theorem Selectors.light_ne_dark (registry : Option String) :
    (Selectors.ofRegistry registry).light ≠ (Selectors.ofRegistry registry).dark := by
  cases registry with
  | none => decide
  | some name =>
    intro heq
    have hlength := congrArg String.length heq
    simp only [Selectors.ofRegistry, String.length_append] at hlength
    have hdark : ".dark".length = 5 := rfl
    omega

theorem hasRules_writeModes (hne : selectors.light ≠ selectors.dark) (nodes : List Node) :
    HasRules version overwrite selectors vars
      (writeModes version overwrite withBreak selectors vars nodes) where
  light := by
    refine (settledIn_writeRule overwrite withBreak selectors.light _ nodes).congr ?_
    exact find?_writeRule (by simpa using Ne.symm hne)
  dark := settledIn_writeRule overwrite withBreak selectors.dark _ _

theorem HasRules.writeModes_eq_self (h : HasRules version overwrite selectors vars nodes) :
    writeModes version overwrite withBreak selectors vars nodes = nodes := by
  rw [writeModes, h.light.writeRule_eq_self, h.dark.writeRule_eq_self]

/-- The variables of both modes are where a version keeps them. -/
def HasModes (version : Version) (overwrite : Bool) (selectors : Selectors) (vars : Variables)
    (nodes : List Node) : Prop :=
  match version with
  | .v3 => (vars.light.isEmpty && vars.dark.isEmpty) = true ∨
      ∃ layer, containerAt? [baseLayer] nodes = some layer ∧
        HasRules .v3 overwrite selectors vars layer
  | .v4 => HasRules .v4 overwrite selectors vars nodes

theorem HasModes.of_outline (h : HasModes version overwrite selectors vars nodes)
    (houtline : outline false again = outline false nodes) :
    HasModes version overwrite selectors vars again := by
  cases version with
  | v3 =>
    refine Or.imp_right ?_ h
    rintro ⟨layer, hlayer, hrules⟩
    obtain ⟨layer', hlayer', hsame⟩ := exists_containerAt?_of_outline houtline hlayer
    exact ⟨layer', hlayer', hrules.of_outline hsame⟩
  | v4 => exact HasRules.of_outline h houtline

theorem hasModes_installModes (hne : selectors.light ≠ selectors.dark) (nodes : List Node) :
    HasModes version overwrite selectors vars
      (installModes version overwrite selectors vars nodes) := by
  cases version with
  | v3 =>
    unfold installModes HasModes
    dsimp only
    split_ifs with hempty
    · exact .inl hempty
    · obtain ⟨inner, hinner⟩ := exists_containerAt?_enter baseLayer true
        (writeModes .v3 overwrite false selectors vars) nodes
      exact .inr ⟨_, hinner, hasRules_writeModes hne inner⟩
  | v4 => exact hasRules_writeModes hne nodes

theorem HasModes.installModes_eq_self (h : HasModes version overwrite selectors vars nodes) :
    installModes version overwrite selectors vars nodes = nodes := by
  cases version with
  | v3 =>
    unfold installModes
    dsimp only
    split_ifs with hempty
    · rfl
    · obtain ⟨layer, hlayer, hrules⟩ := Or.resolve_left h hempty
      exact enter_eq_self hlayer hrules.writeModes_eq_self true
  | v4 => exact HasRules.writeModes_eq_self h

/-- Nothing else touches the places of the modes. -/
theorem HasModes.congr (h : HasModes version overwrite selectors vars nodes)
    (hrule : version = .v4 →
      ∀ selector, find? (.rule selector) again = find? (.rule selector) nodes)
    (hlayer : version = .v3 → ∀ layer, find? baseLayer nodes = some layer →
      find? baseLayer again = some layer) :
    HasModes version overwrite selectors vars again := by
  cases version with
  | v3 =>
    refine Or.imp_right ?_ h
    rintro ⟨layer, hcontainer, hrules⟩
    rw [containerAt?_singleton, Option.map_eq_some_iff] at hcontainer
    obtain ⟨node, hnode, rfl⟩ := hcontainer
    exact ⟨_, by rw [containerAt?_singleton, hlayer rfl node hnode]; rfl, hrules⟩
  | v4 => exact ⟨h.light.congr (hrule rfl _), h.dark.congr (hrule rfl _)⟩

/-! ### The theme -/

/-- The entries of the theme and the mirrors are settled in the inline theme. -/
def HasTheme (overwrite : Bool) (vars : Variables) (nodes : List Node) : Prop :=
  vars.isEmpty = true ∨
    ∃ theme, containerAt? [inlineTheme] nodes = some theme ∧
      Settled overwrite (themeDeclarations vars.theme) theme ∧ Settled false (mirrors vars) theme

theorem HasTheme.of_outline (h : HasTheme overwrite vars nodes)
    (houtline : outline false again = outline false nodes) : HasTheme overwrite vars again := by
  refine Or.imp_right ?_ h
  rintro ⟨theme, htheme, hentries, hmirrors⟩
  obtain ⟨theme', htheme', hsame⟩ := exists_containerAt?_of_outline houtline htheme
  exact ⟨theme', htheme', hentries.of_outline hsame, hmirrors.of_outline hsame⟩

theorem hasTheme_updateTheme (overwrite : Bool) (vars : Variables) (nodes : List Node) :
    HasTheme overwrite vars (updateTheme overwrite vars nodes) := by
  unfold updateTheme
  split_ifs with hempty
  · exact .inl hempty
  · obtain ⟨inner, hinner⟩ := exists_containerAt?_enter inlineTheme true
      (fun theme => insertAll (mirrors vars) (vars.theme.foldl (writeThemeEntry overwrite) theme))
      nodes
    refine .inr ⟨_, hinner, ?_, settled_insertAll (mirrors vars) _⟩
    exact (settled_writeThemeEntry overwrite vars.theme inner).insertAll (mirrors vars)

theorem HasTheme.updateTheme_eq_self (h : HasTheme overwrite vars nodes) :
    updateTheme overwrite vars nodes = nodes := by
  unfold updateTheme
  split_ifs with hempty
  · rfl
  · obtain ⟨theme, htheme, hentries, hmirrors⟩ := Or.resolve_left h hempty
    refine enter_eq_self htheme ?_ true
    rw [writeThemeEntry_eq_self hentries, insertAll_eq_self hmirrors]

theorem find?_updateTheme {place : Place} (hne : inlineTheme ≠ place) :
    find? place (updateTheme overwrite vars nodes) = find? place nodes := by
  unfold updateTheme
  split_ifs
  · rfl
  · exact Css.find?_enter_of_ne hne true _ nodes

/-! ### The variant and the base layer -/

/-- Some variant is declared. -/
def HasVariant (nodes : List Node) : Prop :=
  nodes.any (Node.isAtRuleNamed "custom-variant")

/-- Some base layer is complete. -/
def HasBase (version : Version) (nodes : List Node) : Prop :=
  nodes.any (isCompleteBase version)

theorem HasVariant.of_outline (h : HasVariant nodes)
    (houtline : outline false again = outline false nodes) : HasVariant again := by
  have htest (node : Node) : (node.outline false).any (Node.isAtRuleNamed "custom-variant") =
      node.isAtRuleNamed "custom-variant" := by
    cases node <;> simp [Node.outline, Node.isAtRuleNamed, Node.atRule?]
  unfold HasVariant at h ⊢
  rwa [← Css.any_outline htest, houtline, Css.any_outline htest]

theorem applies_outline (comments : Bool) (nodes : List Node) (rule : String × String) :
    applies (outline comments nodes) rule = applies nodes rule := by
  have hsame := Css.containerAt?_outline comments [.rule rule.1] nodes
  rw [containerAt?_singleton, containerAt?_singleton] at hsame
  unfold applies
  cases hfind : find? (.rule rule.1) nodes with
  | none =>
    rw [hfind, Option.map_none, Option.map_none, Option.map_eq_none_iff] at hsame
    rw [hsame]
  | some found =>
    rw [hfind, Option.map_some, Option.map_some, Option.map_eq_some_iff] at hsame
    obtain ⟨found', hfound', hchildren⟩ := hsame
    rw [hfound']
    dsimp only
    rw [hchildren, Css.any_isAt_outline]

theorem isCompleteBase_outline (comments : Bool) (version : Version) (node : Node) :
    (node.outline comments).any (isCompleteBase version) = isCompleteBase version node := by
  cases node with
  | block name params nodes layout =>
    have happlies : applies (outline comments nodes) = applies nodes :=
      funext (applies_outline comments nodes)
    simp only [Node.outline, List.any_cons, List.any_nil, Bool.or_false, isCompleteBase,
      Node.children, happlies]
    rfl
  | comment text layout => cases comments <;> rfl
  | _ => simp [Node.outline, isCompleteBase, baseLayer, Place.isAt, Node.atRule?, Node.children]

theorem HasBase.of_outline (h : HasBase version nodes)
    (houtline : outline false again = outline false nodes) : HasBase version again := by
  unfold HasBase at h ⊢
  rwa [← Css.any_outline (isCompleteBase_outline false version), houtline,
    Css.any_outline (isCompleteBase_outline false version)]

theorem HasVariant.enter (h : HasVariant nodes) (place : Place) (withBreak : Bool)
    (f : List Node → List Node) : HasVariant (Css.enter place withBreak f nodes) :=
  Css.any_enter (fun node hnode => by rwa [(node.alike_fill f).isAtRuleNamed]) h place withBreak

theorem HasVariant.push (h : HasVariant nodes) (withBreak : Bool) (node : Node) :
    HasVariant (Css.push withBreak node nodes) := by
  unfold HasVariant Css.push at *
  split_ifs <;> simp [h]

theorem HasVariant.installModes (h : HasVariant nodes) :
    HasVariant (installModes .v4 overwrite selectors vars nodes) := by
  have hrule (selector : String) (declarations : List (String × String)) {nodes : List Node}
      (h : HasVariant nodes) :
      HasVariant (writeRule overwrite true selector declarations nodes) := by
    unfold writeRule
    split_ifs
    · exact h
    · exact h.enter _ true _
  exact hrule _ _ (hrule _ _ h)

theorem HasVariant.updateTheme (h : HasVariant nodes) :
    HasVariant (updateTheme overwrite vars nodes) := by
  unfold Theme.updateTheme
  split_ifs
  · exact h
  · exact h.enter _ true _

theorem hasVariant_ensureDarkVariant (nodes : List Node) :
    HasVariant (ensureDarkVariant nodes) := by
  unfold ensureDarkVariant HasVariant
  split_ifs with hany
  · exact hany
  · dsimp only
    split
    · rfl
    · simp [Css.insertAt, Node.isAtRuleNamed, Node.atRule?]

theorem HasVariant.ensureDarkVariant_eq_self (h : HasVariant nodes) :
    ensureDarkVariant nodes = nodes :=
  if_pos h

theorem isCompleteBase_newBase (version : Version) : isCompleteBase version (newBase version) := by
  cases version <;> decide

theorem hasBase_ensureBase (version : Version) (nodes : List Node) :
    HasBase version (ensureBase version nodes) := by
  unfold ensureBase HasBase
  split_ifs with hany
  · exact hany
  · unfold Css.push
    split_ifs <;> simp [isCompleteBase_newBase]

theorem HasBase.ensureBase_eq_self (h : HasBase version nodes) : ensureBase version nodes = nodes :=
  if_pos h

/-! ### Removing the scaffold -/

theorem find?_reviseFirst {place : Place} {p : Node → Bool} {f : List Node → List Node}
    (hp : ∀ node, p node → ¬place.isAt node) (nodes : List Node) :
    find? place (reviseFirst p f nodes) = find? place nodes := by
  unfold find?
  induction nodes with
  | nil => rfl
  | cons node rest ih =>
    rw [reviseFirst]
    split_ifs with hnode hempty
    · rw [List.find?_cons_of_neg (hp node hnode)]
    · rw [List.find?_cons_of_neg (by rw [(node.alike_mapChildren f).isAt]; exact hp node hnode),
        List.find?_cons_of_neg (hp node hnode)]
    · rw [List.find?_cons, List.find?_cons, ih]

/-- The base layer is no part of the scaffold. -/
theorem find?_removeScaffold (nodes : List Node) :
    find? baseLayer (removeScaffold nodes) = find? baseLayer nodes := by
  have hrule (selector : String) (node : Node) (h : isRuleOf selector node) :
      ¬baseLayer.isAt node := by
    cases node <;> simp_all [isRuleOf, Node.selector?, baseLayer, Place.isAt, Node.atRule?]
  have hscheme (node : Node) (h : isDarkScheme node) : ¬baseLayer.isAt node := by
    intro hat
    have hrule : node.atRule? = some ("layer", "base") := by simpa [baseLayer, Place.isAt] using hat
    simp [isDarkScheme, hrule] at h
  unfold removeScaffold removeVariables
  rw [find?_reviseFirst hscheme, find?_reviseFirst (hrule ":root"),
    find?_reviseFirst (hrule "body")]

theorem any_reviseFirst {p q : Node → Bool} {f : List Node → List Node}
    (hp : ∀ node ∈ nodes, p node → ¬q node) (h : nodes.any q) : (reviseFirst p f nodes).any q := by
  induction nodes with
  | nil => cases h
  | cons node rest ih =>
    obtain ⟨hfirst, hrest⟩ := List.forall_mem_cons.mp hp
    rw [List.any_cons, Bool.or_eq_true] at h
    rw [reviseFirst]
    split_ifs with hnode hempty
    · exact h.resolve_left (hfirst hnode)
    · rw [List.any_cons, Bool.or_eq_true]
      exact .inr (h.resolve_left (hfirst hnode))
    · rw [List.any_cons, Bool.or_eq_true]
      exact h.imp_right (ih hrest)

/-- A node that is left is as it was, but for the one that is revised. -/
theorem mem_of_mem_reviseFirst {p : Node → Bool} {f : List Node → List Node} {node : Node}
    (h : node ∈ reviseFirst p f nodes) :
    node ∈ nodes ∨ ∃ other ∈ nodes, p other ∧ node = other.mapChildren f := by
  induction nodes with
  | nil => cases h
  | cons first rest ih =>
    rw [reviseFirst] at h
    split_ifs at h with hfirst hempty
    · exact .inl (List.mem_cons_of_mem _ h)
    · rcases List.mem_cons.mp h with rfl | h
      · exact .inr ⟨first, List.mem_cons_self, hfirst, rfl⟩
      · exact .inl (List.mem_cons_of_mem _ h)
    · rcases List.mem_cons.mp h with rfl | h
      · exact .inl List.mem_cons_self
      · rcases ih h with h | ⟨other, hother, h⟩
        · exact .inl (List.mem_cons_of_mem _ h)
        · exact .inr ⟨other, List.mem_cons_of_mem _ hother, h⟩

/-- Variants are left alone, but for one that is for a preference for dark colours. -/
theorem HasVariant.removeScaffold (h : HasVariant nodes)
    (hscheme : ∀ node ∈ nodes, node.isAtRuleNamed "custom-variant" → ¬isDarkScheme node) :
    HasVariant (removeScaffold nodes) := by
  have hrule {selector : String} {node : Node} (h : isRuleOf selector node) :
      ¬node.isAtRuleNamed "custom-variant" := by
    cases node <;> simp_all [isRuleOf, Node.selector?, Node.isAtRuleNamed, Node.atRule?]
  -- what a rule is revised to is a rule, so it is no variant
  have hleft {selector : String} {f : List Node → List Node} {nodes : List Node}
      (hscheme : ∀ node ∈ nodes, node.isAtRuleNamed "custom-variant" → ¬isDarkScheme node)
      (node : Node) (hnode : node ∈ reviseFirst (isRuleOf selector) f nodes)
      (hvariant : node.isAtRuleNamed "custom-variant") : ¬isDarkScheme node := by
    rcases mem_of_mem_reviseFirst hnode with hnode | ⟨other, hother, hrule', rfl⟩
    · exact hscheme node hnode hvariant
    · cases other <;> simp_all [isRuleOf, Node.selector?, Node.isAtRuleNamed, Node.atRule?,
        Node.mapChildren]
  unfold Theme.removeScaffold
  refine any_reviseFirst (fun node hnode hdark hvariant => ?_)
    (any_reviseFirst (fun _ _ => hrule) (any_reviseFirst (fun _ _ => hrule) h))
  exact hleft (hleft hscheme) node hnode hvariant hdark

/-- The variant that is declared belongs to no scaffold. -/
theorem not_isDarkScheme_of_mem_ensureDarkVariant
    (hscheme : ∀ node ∈ nodes, node.isAtRuleNamed "custom-variant" → ¬isDarkScheme node)
    {node : Node} (hnode : node ∈ ensureDarkVariant nodes)
    (hvariant : node.isAtRuleNamed "custom-variant") : ¬isDarkScheme node := by
  have hnew : ¬isDarkScheme (.statement "custom-variant" darkVariant {}) := by decide
  unfold ensureDarkVariant at hnode
  split_ifs at hnode with hany
  · exact hscheme node hnode hvariant
  dsimp only at hnode
  split at hnode
  · rwa [List.mem_singleton.mp hnode]
  · next nodes _ =>
    rcases Css.mem_insertAt hnode with hnode | hnode | ⟨next, hnext, rfl⟩
    · rcases List.mem_cons.mp hnode with rfl | hnode
      · simp [Css.breakMarker, isDarkScheme, Node.atRule?]
      · rwa [List.mem_singleton.mp hnode]
    · exact hscheme node hnode hvariant
    · rw [next.alike_loosen.isAtRuleNamed] at hvariant
      unfold isDarkScheme
      rw [next.alike_loosen.atRule]
      exact hscheme next hnext hvariant

/-! ### Everything -/

/-- **Variables are installed** where everything that installing them writes is there. -/
structure IsInstalled (vars : Variables) (settings : Settings) (options : Options)
    (nodes : List Node) : Prop where
  modes : HasModes settings.version options.overwrite (.ofRegistry options.registry) vars nodes
  theme : settings.version = .v4 → HasTheme options.overwrite vars nodes
  variant : settings.version = .v4 → HasVariant nodes
  base : settings.cssVariables → HasBase settings.version nodes

variable {settings : Settings} {options : Options}

theorem IsInstalled.of_outline (h : IsInstalled vars settings options nodes)
    (houtline : outline false again = outline false nodes) :
    IsInstalled vars settings options again where
  modes := h.modes.of_outline houtline
  theme hversion := (h.theme hversion).of_outline houtline
  variant hversion := (h.variant hversion).of_outline houtline
  base hvariables := (h.base hvariables).of_outline houtline

theorem not_isAt_newBase {place : Place} (h : place ≠ baseLayer) (version : Version) :
    ¬place.isAt (newBase version) := by
  have hbase : baseLayer.isAt (newBase version) := by cases version <;> rfl
  exact Place.not_isAt_of_ne hbase h.symm

theorem find?_ensureBase {place : Place} (h : place ≠ baseLayer) (version : Version) :
    find? place (ensureBase version nodes) = find? place nodes := by
  unfold ensureBase
  split_ifs
  · rfl
  · exact Css.find?_push (not_isAt_newBase h version) true nodes

/-- A base layer that is there is not moved. -/
theorem find?_baseLayer_ensureBase {layer : Node} (h : find? baseLayer nodes = some layer)
    (version : Version) : find? baseLayer (ensureBase version nodes) = some layer := by
  unfold ensureBase
  split_ifs
  · exact h
  · exact Css.find?_push_of_eq_some h true _

theorem HasTheme.congr (h : HasTheme overwrite vars nodes)
    (hsame : find? inlineTheme again = find? inlineTheme nodes) :
    HasTheme overwrite vars again := by
  unfold HasTheme
  rwa [containerAt?_singleton, hsame, ← containerAt?_singleton]

theorem HasVariant.ensureBase (h : HasVariant nodes) (version : Version) :
    HasVariant (ensureBase version nodes) := by
  unfold Theme.ensureBase
  split_ifs
  · exact h
  · exact h.push true _

/-- The base layer is put behind everything else. -/
theorem IsInstalled.ensureBase
    (h : IsInstalled vars { settings with cssVariables := false } options nodes) :
    IsInstalled vars settings options
      (if settings.cssVariables then ensureBase settings.version nodes else nodes) := by
  split_ifs with hvariables
  · refine ⟨h.modes.congr ?_ ?_, fun hversion => (h.theme hversion).congr ?_,
      fun hversion => (h.variant hversion).ensureBase _, fun _ => hasBase_ensureBase _ _⟩
    · exact fun _ selector => find?_ensureBase (by simp [baseLayer]) _
    · exact fun _ layer hlayer => find?_baseLayer_ensureBase hlayer _
    · exact find?_ensureBase (by simp [baseLayer, inlineTheme]) _
  · exact ⟨h.modes, h.theme, h.variant, fun htrue => absurd htrue hvariables⟩

/-- **After installing variables, they are installed**, if no older configuration is carried over
and no variant belongs to the scaffold. -/
theorem isInstalled_install (hlegacy : options.legacy = none)
    (hscheme : settings.version = .v4 → options.cleanup → ∀ node ∈ nodes,
      node.isAtRuleNamed "custom-variant" → ¬isDarkScheme node) :
    IsInstalled vars settings options (install vars settings options nodes) := by
  have hne := Selectors.light_ne_dark options.registry
  unfold install
  refine IsInstalled.ensureBase ?_
  cases hversion : settings.version with
  | v3 =>
    refine ⟨?_, by simp, by simp, by simp⟩
    simp only [installVariables, hversion]
    refine (hasModes_installModes hne nodes).congr (fun hv4 => by cases hv4)
      fun _ layer hlayer => ?_
    unfold cleanUp
    split_ifs
    · rwa [find?_removeScaffold]
    · exact hlayer
  | v4 =>
    simp only [installVariables, hversion, hlegacy]
    refine ⟨?_, fun _ => hasTheme_updateTheme _ _ _, fun _ => ?_, by simp⟩
    -- The theme is written behind the modes, and both behind the variant.
    · have hmodes : HasModes .v4 options.overwrite _ vars _ :=
        hasModes_installModes hne (cleanUp options (ensureDarkVariant nodes))
      refine hmodes.congr (fun _ selector => ?_) (fun hv3 => by cases hv3)
      exact find?_updateTheme (by simp [inlineTheme])
    · refine HasVariant.updateTheme (HasVariant.installModes ?_)
      have hvariant := hasVariant_ensureDarkVariant nodes
      unfold cleanUp
      split_ifs with hcleanup
      · exact hvariant.removeScaffold fun node =>
          not_isDarkScheme_of_mem_ensureDarkVariant (hscheme hversion hcleanup)
      · exact hvariant

/-- **Installing variables that are installed changes nothing**, if there is no scaffold to
remove. -/
theorem IsInstalled.install_eq_self (h : IsInstalled vars settings options nodes)
    (hlegacy : options.legacy = none) (hclean : options.cleanup → removeScaffold nodes = nodes) :
    install vars settings options nodes = nodes := by
  have hcleaned : cleanUp options nodes = nodes := by
    unfold cleanUp
    split_ifs with hcleanup
    · exact hclean hcleanup
    · rfl
  have hvariables : installVariables vars settings options nodes = nodes := by
    unfold installVariables
    cases hversion : settings.version with
    | v3 =>
      have hmodes := h.modes
      rw [hversion] at hmodes
      simp only [hmodes.installModes_eq_self, hcleaned]
    | v4 =>
      have hmodes := h.modes
      rw [hversion] at hmodes
      simp only [hlegacy, (h.variant hversion).ensureDarkVariant_eq_self, hcleaned,
        hmodes.installModes_eq_self, (h.theme hversion).updateTheme_eq_self]
  rw [install, hvariables]
  split_ifs with hsetting
  · exact (h.base hsetting).ensureBase_eq_self
  · rfl

end Restyle.Theme
