import Restyle.Proofs.Theme.Additions
import Restyle.Proofs.Theme.Indifference

/-!
# Where the imports are after installing

An `@import` counts only in front of everything else in a style sheet, and what is installed should
not get in front of one. Most of it does not: rules and layers are added at the end, plugins behind
the imports, and cleaning up removes nodes only. Such an edit **keeps** the imports where they are
(`Restyle.Theme.KeepsImports`), so that it can be left out of account.

The variant `dark` of version 4 is the exception. It is declared behind the first node, whatever is
behind that, and an import that is behind it no longer counts. So where the imports led before, they
lead afterwards exactly if no variant has to be declared, or if no import is behind the first node
(`Restyle.Theme.importsLead_install`). A style sheet that starts with its one import is safe, one
with two imports is not (`Restyle.Theme.not_forall_importsLead_install`).
-/

namespace Restyle.Theme

open Restyle.Css (HasNo ImportsLead Label Node Place labels)
open Restyle.Project (Settings Version)

variable {place : Place} {nodes front rest : List Node} {f g : List Node → List Node}
  {p : Node → Bool}

/-! ### Edits behind the imports -/

/-- **An edit keeps the imports where they are** if they lead after it exactly when they led
before. -/
abbrev KeepsImports (f : List Node → List Node) : Prop :=
  Css.Keeps ImportsLead f

/-- A plugin is put behind the imports, so that none of them gets behind it. -/
theorem keepsImports_ensurePlugin (params : String) : KeepsImports (Css.ensurePlugin params) := by
  intro nodes
  refine propext ⟨fun h => ?_, fun h => h.ensurePlugin params⟩
  rcases Css.ensurePlugin_cases params nodes with ⟨-, hsame⟩ | ⟨-, front, new, rest, hold, hnew, -⟩
  · rwa [hsame] at h
  · rw [ImportsLead, hnew] at h
    rw [ImportsLead, hold]
    exact h.sublist ((List.sublist_append_left front new).append_right rest)

/-! ### The steps behind the variant -/

/-- What is added at the end is all the same, as long as it is no import. -/
theorem overlooksAdditions_importsLead : OverlooksAdditions ImportsLead where
  behind := by
    intro nodes new added hlabels himport _
    rw [ImportsLead, hlabels]
    exact propext
      ⟨fun h => (List.pairwise_append.mp h).1, fun h => Css.pairwise_append_of_hasNo h himport⟩
  plugin := keepsImports_ensurePlugin

theorem keepsImports_installModes (version : Version) (overwrite : Bool) (selectors : Selectors)
    (vars : Variables) : KeepsImports (installModes version overwrite selectors vars) :=
  overlooksAdditions_importsLead.installModes version overwrite selectors vars

theorem keepsImports_enter_inlineTheme (f : List Node → List Node) :
    KeepsImports (Css.enter inlineTheme true f) :=
  overlooksAdditions_importsLead.enterTheme f

theorem keepsImports_migrate (legacy : Legacy) : KeepsImports (migrate legacy) :=
  overlooksAdditions_importsLead.migrate legacy

theorem keepsImports_ensureBase (version : Version) : KeepsImports (ensureBase version) :=
  overlooksAdditions_importsLead.ensureBase version

/-! ### Cleaning up -/

theorem labels_reviseFirst (p : Node → Bool) (f : List Node → List Node) (nodes : List Node) :
    (labels (reviseFirst p f nodes)).Sublist (labels nodes) := by
  induction nodes with
  | nil => exact .slnil
  | cons node rest ih =>
    rw [reviseFirst]
    split_ifs
    · exact List.sublist_cons_self _ _
    · rw [labels, List.map_cons, (node.alike_mapChildren f).label?]
      exact .refl _
    · exact ih.cons_cons _

theorem labels_removeScaffold (nodes : List Node) :
    (labels (removeScaffold nodes)).Sublist (labels nodes) :=
  (labels_reviseFirst _ _ _).trans ((labels_reviseFirst _ _ _).trans (labels_reviseFirst _ _ _))

/-- Nothing gets in front of an import by a removal. -/
theorem importsLead_cleanUp (h : ImportsLead nodes) (options : Options) :
    ImportsLead (cleanUp options nodes) := by
  unfold cleanUp
  split_ifs
  · exact h.sublist (labels_removeScaffold nodes)
  · exact h

/-- The first node of a kind is in the one half or in the other. -/
theorem reviseFirst_append (p : Node → Bool) (f : List Node → List Node) (front rest : List Node) :
    reviseFirst p f (front ++ rest) =
      if front.any p then reviseFirst p f front ++ rest else front ++ reviseFirst p f rest := by
  induction front with
  | nil => rfl
  | cons node front ih =>
    rw [List.cons_append, reviseFirst, reviseFirst, List.any_cons, ih]
    by_cases hnode : p node
    · rw [if_pos hnode, if_pos hnode, hnode, Bool.true_or, if_pos rfl]
      split_ifs <;> rfl
    · rw [if_neg hnode, if_neg hnode, Bool.of_not_eq_true hnode, Bool.false_or]
      split_ifs <;> rfl

/-- Whether a node is an at-rule. -/
def isAtRule (node : Node) : Bool := node.atRule?.isSome

theorem isAtRule_mapChildren (f : List Node → List Node) (node : Node) :
    isAtRule (node.mapChildren f) = isAtRule node := by
  rw [isAtRule, (node.alike_mapChildren f).atRule, isAtRule]

/-- The at-rules among some nodes. -/
def atRulesOf (nodes : List Node) : List Node := nodes.filter isAtRule

theorem any_atRulesOf (hp : ∀ node, p node → isAtRule node) (nodes : List Node) :
    (atRulesOf nodes).any p = nodes.any p := by
  rw [atRulesOf, List.any_filter]
  congr 1
  funext node
  by_cases hnode : p node
  · rw [hnode, hp node hnode, Bool.true_and]
  · rw [Bool.of_not_eq_true hnode, Bool.and_false]

theorem isAtRule_of_isAt {name params : String} {node : Node}
    (h : (Place.atRule name params).isAt node) : isAtRule node := by
  cases node <;> simp_all [Place.isAt, Node.atRule?, isAtRule]

theorem isAtRule_of_isDarkScheme {node : Node} (h : isDarkScheme node) : isAtRule node := by
  cases node <;> simp_all [isDarkScheme, Node.atRule?, isAtRule]

theorem hasNo_labels_congr {name : String} (h : atRulesOf nodes = atRulesOf rest) :
    HasNo name (labels nodes) ↔ HasNo name (labels rest) := by
  refine forall_congr' fun params => not_congr ?_
  have hany (nodes : List Node) : some (.atRule name params) ∈ labels nodes ↔
      (atRulesOf nodes).any (Place.atRule name params).isAt := by
    rw [any_atRulesOf fun _ => isAtRule_of_isAt]
    have hplace : (Place.atRule name params).label = .atRule name params := rfl
    rw [← hplace, Css.any_isAt_iff_labels]
  rw [hany, h, ← hany]

/-- A rule that is revised makes no difference to the at-rules. -/
theorem atRulesOf_reviseFirst_of_rule (hp : ∀ node, p node → ¬isAtRule node)
    (f : List Node → List Node) (nodes : List Node) :
    atRulesOf (reviseFirst p f nodes) = atRulesOf nodes := by
  unfold atRulesOf
  induction nodes with
  | nil => rfl
  | cons node rest ih =>
    rw [reviseFirst]
    split_ifs with hnode
    · rw [List.filter_cons_of_neg (hp node hnode)]
    · rw [List.filter_cons_of_neg (by rw [isAtRule_mapChildren]; exact hp node hnode),
        List.filter_cons_of_neg (hp node hnode)]
    · rw [List.filter_cons, List.filter_cons, ih]

/-- An at-rule that is revised is the first of its kind among the at-rules. -/
theorem atRulesOf_reviseFirst (hp : ∀ node, p node → isAtRule node)
    (f : List Node → List Node) (nodes : List Node) :
    atRulesOf (reviseFirst p f nodes) = reviseFirst p f (atRulesOf nodes) := by
  unfold atRulesOf
  induction nodes with
  | nil => rfl
  | cons node rest ih =>
    by_cases hrule : isAtRule node
    · rw [reviseFirst, List.filter_cons_of_pos hrule, reviseFirst]
      split_ifs
      · rfl
      · rw [List.filter_cons_of_pos (by rwa [isAtRule_mapChildren])]
      · rw [List.filter_cons_of_pos hrule, ih]
    · have hnode : ¬p node := fun h => hrule (hp node h)
      rw [reviseFirst, if_neg hnode, List.filter_cons_of_neg hrule, ih,
        List.filter_cons_of_neg hrule]

/-! ### Cleaning up in two halves -/

/-- A rule that is revised is in the one half or in the other, and the at-rules of both are as they
were. -/
theorem exists_reviseFirst_append (hp : ∀ node, p node → ¬isAtRule node)
    (f : List Node → List Node) (front rest : List Node) :
    ∃ front' rest', reviseFirst p f (front ++ rest) = front' ++ rest' ∧
      (labels front').Sublist (labels front) ∧ atRulesOf front' = atRulesOf front ∧
      atRulesOf rest' = atRulesOf rest := by
  rw [reviseFirst_append]
  split_ifs
  · exact ⟨_, _, rfl, labels_reviseFirst p f front, atRulesOf_reviseFirst_of_rule hp f front, rfl⟩
  · exact ⟨_, _, rfl, .refl _, rfl, atRulesOf_reviseFirst_of_rule hp f rest⟩

/-- **What is left of two halves**, as far as at-rules go: the front keeps those that are not for
dark colours, and where it has one that is, the rest is not cleaned up. -/
theorem exists_removeScaffold_append (front rest : List Node) :
    ∃ front' rest', removeScaffold (front ++ rest) = front' ++ rest' ∧
      (labels front').Sublist (labels front) ∧
      (∀ q : Node → Bool, (∀ node, q node → isAtRule node ∧ ¬isDarkScheme node) →
        front.any q → front'.any q) ∧
      atRulesOf rest' = atRulesOf (if front.any isDarkScheme then rest
        else reviseFirst isDarkScheme removeVariables rest) := by
  have hrule (selector : String) (node : Node) (h : isRuleOf selector node) : ¬isAtRule node := by
    cases node <;> simp_all [isRuleOf, Node.selector?, Node.atRule?, isAtRule]
  have hscheme (node : Node) : isDarkScheme node → isAtRule node := isAtRule_of_isDarkScheme
  obtain ⟨front₁, rest₁, hbody, hlabels₁, hfront₁, hrest₁⟩ :=
    exists_reviseFirst_append (hrule "body") cleanBody front rest
  obtain ⟨front₂, rest₂, hroot, hlabels₂, hfront₂, hrest₂⟩ :=
    exists_reviseFirst_append (hrule ":root") (List.filter (!isScaffoldVariable ·)) front₁ rest₁
  have hany {q : Node → Bool} (hq : ∀ node, q node → isAtRule node) :
      front₂.any q = front.any q := by
    rw [← any_atRulesOf hq, hfront₂, hfront₁, any_atRulesOf hq]
  -- the rules are done: both halves have the at-rules that they had, and it is among these that the
  -- one for dark colours is looked for
  have hlabels := hlabels₂.trans hlabels₁
  rw [removeScaffold, hbody, removeVariables, hroot, reviseFirst_append, hany hscheme]
  split_ifs with hdark
  · refine ⟨_, _, rfl, (labels_reviseFirst _ _ _).trans hlabels, fun q hq h => ?_,
      hrest₂.trans hrest₁⟩
    exact any_reviseFirst (fun node _ hnode hat => (hq node hat).2 hnode)
      (by rwa [hany fun node hat => (hq node hat).1])
  · refine ⟨_, _, rfl, hlabels, fun q hq h => by rwa [hany fun node hat => (hq node hat).1], ?_⟩
    rw [atRulesOf_reviseFirst hscheme, hrest₂, hrest₁, atRulesOf_reviseFirst hscheme]

/-! ### The variant -/

theorem not_isDarkScheme_of_isAt {node : Node}
    (h : (Place.atRule "custom-variant" darkVariant).isAt node) : ¬isDarkScheme node := by
  have hrule : node.atRule? = some ("custom-variant", darkVariant) := by simpa [Place.isAt] using h
  simp [isDarkScheme, hrule, darkVariant]

/-- The nodes behind the first one, but for an at-rule for dark colours that cleaning up removes
there. The rules that it removes make no difference to the imports. -/
def keptBehind (options : Options) : List Node → List Node
  | [] => []
  | first :: rest =>
    if !options.cleanup || isDarkScheme first then rest
    else reviseFirst isDarkScheme removeVariables rest

theorem importsLead_congr (h : Css.outline true nodes = Css.outline true rest) :
    ImportsLead nodes ↔ ImportsLead rest := by
  have hlabels (nodes : List Node) : labels (Css.outline true nodes) = labels nodes :=
    Css.map_outline (fun node => node.alike_bare.label?) nodes
  rw [ImportsLead, ← hlabels, h, hlabels, ImportsLead]

/-- Two halves of a style sheet, the first of which has an at-rule that is no import: the imports
lead if they lead in it and there is none in the other half. -/
theorem importsLead_append_iff {name params : String} (hname : name ≠ "import")
    (hmem : some (Label.atRule name params) ∈ labels front) (hfront : ImportsLead front) :
    ImportsLead (front ++ rest) ↔ HasNo "import" (labels rest) := by
  rw [ImportsLead, labels, List.map_append]
  constructor
  · intro h other hother
    obtain ⟨-, -, hcross⟩ := List.pairwise_append.mp h
    rcases hcross _ hmem _ hother ⟨other, rfl⟩ with ⟨_, hlabel⟩ | hlabel
    · cases hlabel
      exact hname rfl
    · cases hlabel
  · exact fun h => Css.pairwise_append_of_hasNo hfront h

/-- **Behind the variant, an import does not count**: where one is declared, the imports lead if
there is none behind the first node. -/
theorem importsLead_cleanUp_ensureDarkVariant (options : Options)
    (h : ¬nodes.any (Node.isAtRuleNamed "custom-variant")) :
    ImportsLead (cleanUp options (ensureDarkVariant nodes)) ↔
      HasNo "import" (labels (keptBehind options nodes)) := by
  rw [ensureDarkVariant, if_neg h]
  cases nodes with
  | nil =>
    have hone : ImportsLead [.statement "custom-variant" darkVariant {}] :=
      List.pairwise_singleton _ _
    exact ⟨fun _ => nofun, fun _ => importsLead_cleanUp hone options⟩
  | cons first rest =>
    let variant : Node := .statement "custom-variant" darkVariant {}
    let front : List Node := [first, Css.breakMarker, variant]
    -- the node that is pushed down is loosened, which makes no difference to where the imports are
    have hloosen : Css.outline true (Css.insertAt 1 [Css.breakMarker, variant] (first :: rest)) =
        Css.outline true (front ++ rest) := by
      rw [Css.outline_true, Css.map_insertAt Node.bare_loosen (by simp), Css.outline_true]
      rfl
    have hlead : ImportsLead front := by
      have hbehind : HasNo "import" (labels [Css.breakMarker, variant]) := by
        simp [HasNo, labels, variant, Css.breakMarker, Node.label?]
      exact Css.pairwise_append_of_hasNo (List.pairwise_singleton _ first.label?) hbehind
    have hvariant : front.any (Place.atRule "custom-variant" darkVariant).isAt := by
      simp [front, variant, Place.isAt, Node.atRule?]
    refine (importsLead_congr ((isIndifferent_cleanUp options).outline_eq hloosen)).trans ?_
    unfold cleanUp keptBehind
    dsimp only
    cases options.cleanup with
    | false => exact importsLead_append_iff (by decide) (Css.any_isAt_iff_labels.mp hvariant) hlead
    | true =>
      obtain ⟨front', rest', hsplit, hlabels, hkept, hrest⟩ :=
        exists_removeScaffold_append front rest
      have hvariant' := hkept (Place.atRule "custom-variant" darkVariant).isAt
        (fun node hnode => ⟨isAtRule_of_isAt hnode, not_isDarkScheme_of_isAt hnode⟩) hvariant
      have hdark : front.any isDarkScheme = isDarkScheme first := by
        simp [front, variant, Css.breakMarker, isDarkScheme, Node.atRule?, darkVariant]
      rw [if_pos rfl, hsplit, importsLead_append_iff (by decide)
        (Css.any_isAt_iff_labels.mp hvariant') (hlead.sublist hlabels), hasNo_labels_congr hrest,
        hdark]
      rfl

/-! ### The whole installation -/

/-- **Where the imports lead, they lead after installing** exactly if no variant has to be declared,
in version 3 or where one is declared already, or if no import is behind the first node. -/
theorem importsLead_install (h : ImportsLead nodes) (vars : Variables) (settings : Settings)
    (options : Options) :
    ImportsLead (install vars settings options nodes) ↔
      settings.version = .v3 ∨ nodes.any (Node.isAtRuleNamed "custom-variant") ∨
        HasNo "import" (labels (keptBehind options nodes)) := by
  have hmodes (version : Version) := keepsImports_installModes version options.overwrite
    (.ofRegistry options.registry) vars
  have hbase (nodes : List Node) : ImportsLead
      (if settings.cssVariables then ensureBase settings.version nodes else nodes) ↔
        ImportsLead nodes := by
    split_ifs
    · exact (keepsImports_ensureBase settings.version nodes).to_iff
    · rfl
  refine (hbase _).trans ?_
  unfold installVariables
  cases settings.version with
  | v3 =>
    -- no variant is declared, and none of the edits moves an import
    have hlead := importsLead_cleanUp ((hmodes .v3 nodes).mpr h) options
    exact iff_of_true hlead (.inl rfl)
  | v4 =>
    -- only the variant and the clean-up tell: what comes behind them leaves the imports in place
    have htheme : KeepsImports (updateTheme options.overwrite vars) :=
      (keepsImports_enter_inlineTheme _).otherwise
    have hinstalled := (htheme.comp (hmodes .v4)) (cleanUp options (ensureDarkVariant nodes))
    refine Iff.trans ?_ (hinstalled.to_iff.trans ?_)
    · cases options.legacy with
      | none => rfl
      | some legacy => exact (keepsImports_migrate legacy _).to_iff
    by_cases hany : nodes.any (Node.isAtRuleNamed "custom-variant")
    · rw [ensureDarkVariant, if_pos hany]
      exact iff_of_true (importsLead_cleanUp h options) (.inr (.inl hany))
    · rw [importsLead_cleanUp_ensureDarkVariant options hany]
      simp [hany]

/-- One import, in front of a scaffold that is removed. -/
theorem importsLead_install_scaffold :
    let nodes : List Node :=
      [.statement "import" "'tailwindcss'" {}, .comment " scaffold " {},
        .block "media" "(prefers-color-scheme: dark)"
          [.rule ":root" [.declaration "--background" "#000" {}] {}] {},
        .rule "body" [.declaration "color" "var(--foreground)" {}] {}]
    ImportsLead nodes ∧ ImportsLead (install { light := [("gap", "4px")] } { version := .v4 }
      { cleanup := true, legacy := some { plugins := ["forms"] } } nodes) := by
  intro nodes
  have hbefore : ImportsLead nodes := by
    simp [ImportsLead, labels, Css.MayPrecede, nodes, Node.label?]
  have hkept : HasNo "import" (labels (keptBehind
      { cleanup := true, legacy := some { plugins := ["forms"] } } nodes)) := by
    have hlabels : labels (keptBehind { cleanup := true, legacy := some { plugins := ["forms"] } }
        nodes) = [none, some (.rule "body")] := by decide
    rw [hlabels]
    simp [HasNo]
  exact ⟨hbefore, (importsLead_install hbefore _ _ _).mpr (.inr (.inr hkept))⟩

/-- Of two imports, the second one gets behind the variant. -/
theorem not_forall_importsLead_install :
    ¬∀ (vars : Variables) (settings : Settings) (options : Options) (nodes : List Node),
      ImportsLead nodes → ImportsLead (install vars settings options nodes) := by
  intro hall
  let nodes : List Node := [.statement "import" "'a'" {}, .statement "import" "'b'" {}]
  have hbefore : ImportsLead nodes := by
    simp [ImportsLead, labels, Css.MayPrecede, nodes, Node.label?]
  have hafter := hall {} { cssVariables := false, version := .v4 } {} nodes hbefore
  have hlabels : labels (install {} { cssVariables := false, version := .v4 } {} nodes) =
      [some (.atRule "import" "'a'"), none, some (.atRule "custom-variant" darkVariant),
        some (.atRule "import" "'b'")] := by decide
  rw [ImportsLead, hlabels] at hafter
  simp [Css.MayPrecede] at hafter

end Restyle.Theme
