import Restyle.Proofs.Css.Occurrences
import Restyle.Proofs.Theme.Contents

/-!
# Registries keep to themselves

Variables may be installed for all elements, or for those of one registry only. Registries share the
style sheet, its base layer and its theme, but no rule: the selectors of two registries are
different, and none is that of all elements (`Restyle.Theme.Selectors.not_mem_modes_of_ne`).

So what is installed for one registry is of no concern to the others
(`Restyle.Theme.registries_apart`). Wherever a rule of all elements or of another registry occurs,
there is the same in it afterwards. Only the keyframes that are carried over may bring rules of any
selector along. And of two installations for two registries, it does not matter which comes first:
it may be another one that makes the base layer, but the rules of both registries are the same.
-/

namespace Restyle.Theme

open Restyle.Css (Node Occurrence Place Spares containerAt? contentsOf find?)
open Restyle.Project (Settings Version)

variable {p : String → Bool} {nodes : List Node} {selectors : Selectors} {selector : String}
  {vars : Variables} {settings : Settings} {options : Options} {version : Version}
  {overwrite withBreak : Bool} {declarations : List (String × String)}

/-! ### The selectors of registries -/

/-- The selectors of both modes. -/
def Selectors.modes (selectors : Selectors) : List String := [selectors.light, selectors.dark]

theorem light_ofRegistry (name : String) :
    (Selectors.ofRegistry (some name)).light.toList =
      "[data-registry=\"".toList ++ name.toList ++ "\"]".toList := by
  simp [Selectors.ofRegistry]

theorem dark_ofRegistry (name : String) :
    (Selectors.ofRegistry (some name)).dark.toList =
      (Selectors.ofRegistry (some name)).light.toList ++ ".dark".toList := by
  simp [Selectors.ofRegistry]

/-- The selectors of a registry start with an attribute, those for all elements do not. -/
theorem head?_of_mem_modes {name : String}
    (h : selector ∈ (Selectors.ofRegistry (some name)).modes) :
    selector.toList.head? = some '[' := by
  rcases List.mem_pair.mp h with rfl | rfl
  · simp [light_ofRegistry]
  · simp [dark_ofRegistry, light_ofRegistry]

/-- No mode has a selector of the base layer. -/
theorem ne_of_mem_modes {registry : Option String}
    (h : selector ∈ (Selectors.ofRegistry registry).modes) :
    selector ≠ "*" ∧ selector ≠ "body" := by
  cases registry with
  | none => rcases List.mem_pair.mp h with rfl | rfl <;> decide
  | some name =>
    have hhead := head?_of_mem_modes h
    constructor <;> rintro rfl <;> exact absurd hhead (by decide)

/-- **The selectors of two registries are different.** -/
theorem Selectors.not_mem_modes_of_ne {first second : String} (hne : first ≠ second)
    (h : selector ∈ (ofRegistry (some first)).modes) :
    selector ∉ (ofRegistry (some second)).modes := by
  have hlight : (ofRegistry (some first)).light ≠ (ofRegistry (some second)).light := by
    intro heq
    have hlists := congrArg String.toList heq
    rw [light_ofRegistry, light_ofRegistry, List.append_left_inj, List.append_right_inj,
      String.toList_inj] at hlists
    exact hne hlists
  have hdark : (ofRegistry (some first)).dark ≠ (ofRegistry (some second)).dark := by
    intro heq
    have hlists := congrArg String.toList heq
    rw [dark_ofRegistry, dark_ofRegistry, List.append_left_inj, String.toList_inj] at hlists
    exact hlight hlists
  have hmodes (first second : String) :
      (ofRegistry (some first)).light ≠ (ofRegistry (some second)).dark := by
    intro heq
    have hlast : (ofRegistry (some first)).light.toList.getLast? = some ']' := by
      rw [light_ofRegistry, List.getLast?_append]
      rfl
    rw [heq, dark_ofRegistry, List.getLast?_append] at hlast
    cases hlast
  intro hother
  rcases List.mem_pair.mp h with rfl | rfl <;> rcases List.mem_pair.mp hother with heq | heq
  · exact hlight heq
  · exact hmodes first second heq
  · exact hmodes second first heq.symm
  · exact hdark heq

/-! ### The rules of others -/

theorem spares_assignAll (overwrite : Bool) (declarations : List (String × String)) :
    Spares p (assignAll overwrite declarations) :=
  .foldl (fun declaration => Css.spares_assign overwrite declaration.1 declaration.2) declarations

theorem spares_insertAll (declarations : List (String × String)) :
    Spares p (insertAll declarations) :=
  .foldl (fun declaration => Css.spares_insertProperty declaration.1 declaration.2) declarations

theorem spares_writeRule (hselector : ¬p selector) :
    Spares p (writeRule overwrite withBreak selector declarations) := by
  have hplace (other : String) (h : Place.rule selector = .rule other) : ¬p other := by
    cases h
    exact hselector
  exact (Css.spares_enter hplace (spares_assignAll overwrite declarations) withBreak).otherwise

theorem spares_installModes (hmodes : ∀ selector ∈ selectors.modes, ¬p selector) (version : Version)
    (overwrite : Bool) (vars : Variables) :
    Spares p (installModes version overwrite selectors vars) := by
  have hrules (version : Version) (withBreak : Bool) :
      Spares p (writeModes version overwrite withBreak selectors vars) :=
    (spares_writeRule (hmodes _ (by simp [Selectors.modes]))).comp
      (spares_writeRule (hmodes _ (by simp [Selectors.modes])))
  cases version with
  | v3 => exact (Css.spares_enter (by simp [baseLayer]) (hrules .v3 false) true).otherwise
  | v4 => exact hrules .v4 true

theorem spares_enter_inlineTheme {f : List Node → List Node} (hf : Spares p f) :
    Spares p (Css.enter inlineTheme true f) :=
  Css.spares_enter (by simp [inlineTheme]) hf true

theorem spares_updateTheme (overwrite : Bool) (vars : Variables) :
    Spares p (updateTheme overwrite vars) := by
  have hentry (entry : String × String) :
      Spares p fun nodes => writeThemeEntry overwrite nodes entry := by
    intro nodes
    dsimp only [writeThemeEntry]
    split_ifs
    · exact Css.spares_assign overwrite _ entry.2 nodes
    · exact Css.spares_insertProperty _ entry.2 nodes
  have htheme := (spares_insertAll (p := p) (mirrors vars)).comp (.foldl hentry vars.theme)
  exact (spares_enter_inlineTheme htheme).otherwise

theorem spares_ensureDarkVariant : Spares p ensureDarkVariant := by
  refine Css.Keeps.otherwise fun nodes => ?_
  cases nodes with
  | nil => rfl
  | cons first rest => exact Css.spares_insertAt rfl 1 (first :: rest)

/-- The rules of a base layer are for all elements and for the body. -/
theorem spares_ensureBaseOf (hall : ¬p "*") (hbody : ¬p "body") (settings : Settings) :
    Spares p (ensureBaseOf settings) := by
  have hnew (version : Version) : (newBase version).occurrences p = [] := by
    cases version <;>
      simp [newBase, baseRules, Node.occurrences, Css.occurrences, hall, hbody]
  have hbase : Spares p (ensureBase settings.version) :=
    (Css.spares_push (hnew settings.version) true).otherwise
  intro nodes
  unfold ensureBaseOf
  split_ifs
  · exact hbase nodes
  · rfl

/-! ### Keyframes -/

/-- An occurrence in keyframes that are carried over into the theme. -/
def IsInKeyframes (legacy : Option Legacy) (occurrence : Occurrence) : Prop :=
  ∃ entry ∈ keyframesOf legacy, ∃ path,
    occurrence.path = inlineTheme :: .atRule "keyframes" entry.1 :: path

theorem exists_occurrences_addKeyframes (keyframes : Entries (Entries (Entries String)))
    (theme : List Node) :
    ∃ added : List Occurrence,
      Css.occurrences p (addKeyframes keyframes theme) = Css.occurrences p theme ++ added ∧
      ∀ occurrence ∈ added, ∃ entry ∈ keyframes, ∃ path,
        occurrence.path = .atRule "keyframes" entry.1 :: path := by
  induction keyframes generalizing theme with
  | nil => exact ⟨[], (List.append_nil _).symm, by simp⟩
  | cons entry rest ih =>
    obtain ⟨behind, hbehind, hpaths⟩ := ih (if theme.any (Place.atRule "keyframes" entry.1).isAt
      then theme else Css.push true (keyframesNode entry.1 entry.2) theme)
    have hrest (occurrence : Occurrence) (h : occurrence ∈ behind) : ∃ other ∈ entry :: rest,
        ∃ path, occurrence.path = .atRule "keyframes" other.1 :: path := by
      obtain ⟨other, hother, hpath⟩ := hpaths occurrence h
      exact ⟨other, List.mem_cons_of_mem _ hother, hpath⟩
    rw [addKeyframes, List.foldl_cons, ← addKeyframes, hbehind]
    split_ifs
    · exact ⟨behind, rfl, hrest⟩
    · refine ⟨(keyframesNode entry.1 entry.2).occurrences p ++ behind, ?_, ?_⟩
      · rw [Css.occurrences_push, List.append_assoc]
      · intro occurrence hmem
        rcases List.mem_append.mp hmem with hmem | hmem
        · obtain ⟨inner, -, rfl⟩ := List.mem_map.mp hmem
          exact ⟨entry, List.mem_cons_self, inner.path, rfl⟩
        · exact hrest occurrence hmem

/-- **What is carried over spares all rules**, and the keyframes among it are at the end of the
theme. -/
theorem exists_occurrences_carryOver (legacy : Option Legacy) (nodes : List Node) :
    ∃ (front added back : List Occurrence), Css.occurrences p nodes = front ++ back ∧
      Css.occurrences p (carryOver legacy nodes) = front ++ added ++ back ∧
      ∀ occurrence ∈ added, IsInKeyframes legacy occurrence := by
  cases legacy with
  | none =>
    exact ⟨Css.occurrences p nodes, [], [], (List.append_nil _).symm, by simp [carryOver], by simp⟩
  | some legacy =>
    have hplugins : Spares p (migratePlugins legacy.plugins) := fun nodes =>
      Css.Keeps.foldl (fun _ => Css.spares_ensurePlugin _) legacy.plugins nodes
    have hanimations : Spares p (migrateAnimations legacy.animation) :=
      (spares_enter_inlineTheme (spares_insertAll _)).otherwise
    -- neither plugins nor animations are rules, so it is all up to the keyframes
    rw [carryOver, migrate, ← hplugins nodes, ← hanimations (migratePlugins legacy.plugins nodes)]
    generalize migrateAnimations legacy.animation (migratePlugins legacy.plugins nodes) = nodes
    unfold migrateKeyframes
    split_ifs
    · exact ⟨Css.occurrences p nodes, [], [], (List.append_nil _).symm, by simp, by simp⟩
    · have htheme (selector : String) (h : inlineTheme = .rule selector) : ¬p selector := by
        simp [inlineTheme] at h
      obtain ⟨front, added, back, hold, hnew, hpaths⟩ := Css.exists_occurrences_enter htheme
        (exists_occurrences_addKeyframes legacy.keyframes) true nodes
      refine ⟨front, _, back, hold, hnew, fun occurrence hmem => ?_⟩
      obtain ⟨inner, hinner, rfl⟩ := List.mem_map.mp hmem
      obtain ⟨entry, hentry, path, hpath⟩ := hpaths inner hinner
      exact ⟨entry, hentry, path, congrArg (inlineTheme :: ·) hpath⟩

/-- **An installation spares the rules of other selectors** than those of its modes and of the base
layer, wherever they occur. -/
theorem exists_occurrences_install (vars : Variables) (settings : Settings) (options : Options)
    (hmodes : ∀ selector ∈ (Selectors.ofRegistry options.registry).modes, ¬p selector)
    (hall : ¬p "*") (hbody : ¬p "body") (nodes : List Node) :
    ∃ (front added back : List Occurrence), Css.occurrences p nodes = front ++ back ∧
      Css.occurrences p (install vars settings { options with cleanup := false } nodes) =
        front ++ added ++ back ∧
      ∀ occurrence ∈ added, settings.version = .v4 ∧ IsInKeyframes options.legacy occurrence := by
  have hwritten (version : Version) :
      Spares p (installModes version options.overwrite (.ofRegistry options.registry) vars) :=
    spares_installModes hmodes version options.overwrite vars
  rw [install_steps, spares_ensureBaseOf hall hbody]
  cases settings.version with
  | v3 =>
    exact ⟨Css.occurrences p nodes, [], [], (List.append_nil _).symm, by simp [hwritten .v3 nodes],
      by simp⟩
  | v4 =>
    have hspared := ((spares_updateTheme options.overwrite vars).comp
      ((hwritten .v4).comp spares_ensureDarkVariant)) nodes
    obtain ⟨front, added, back, hold, hnew, hcarried⟩ := exists_occurrences_carryOver (p := p)
      options.legacy (updateTheme options.overwrite vars (installModes .v4 options.overwrite
        (.ofRegistry options.registry) vars (ensureDarkVariant nodes)))
    exact ⟨front, added, back, hspared.symm.trans hold, hnew,
      fun occurrence hmem => ⟨rfl, hcarried occurrence hmem⟩⟩

/-! ### The rules of the modes -/

/-- What comes of a rule that declarations are written in. It is made where it is missing, if there
is anything to declare. -/
def writtenIn (overwrite : Bool) (declarations : List (String × String))
    (rule : Option (List Node)) : Option (List Node) :=
  if declarations.isEmpty then rule else some (assignAll overwrite declarations (rule.getD []))

@[simp] theorem writtenIn_nil (overwrite : Bool) (rule : Option (List Node)) :
    writtenIn overwrite [] rule = rule := rfl

/-- The declarations of variables in the rule of a selector. -/
def declarationsIn (version : Version) (selectors : Selectors) (vars : Variables)
    (selector : String) : List (String × String) :=
  if selector = selectors.light then declarationsFor version vars.light
  else if selector = selectors.dark then declarationsFor version vars.dark
  else []

theorem declarationsIn_eq_nil (h : selector ∉ selectors.modes) (version : Version)
    (vars : Variables) :
    declarationsIn version selectors vars selector = [] := by
  rw [Selectors.modes, List.mem_pair, not_or] at h
  rw [declarationsIn, if_neg h.1, if_neg h.2]

theorem containerAt?_writeRule (overwrite withBreak : Bool) (selector : String)
    (declarations : List (String × String)) (nodes : List Node) :
    containerAt? [.rule selector] (writeRule overwrite withBreak selector declarations nodes) =
      writtenIn overwrite declarations (containerAt? [.rule selector] nodes) := by
  unfold writeRule writtenIn
  split_ifs
  · rfl
  · obtain ⟨inner, hinner⟩ := exists_containerAt?_enter (.rule selector) withBreak
      (assignAll overwrite declarations) nodes
    have hcontents := Css.contentsOf_enter (.rule selector) withBreak
      (assignAll overwrite declarations) nodes
    rw [containerAt?_singleton] at hinner
    rw [contentsOf, hinner, Option.getD_some, contentsOf] at hcontents
    rw [containerAt?_singleton, hinner, hcontents, containerAt?_singleton]

theorem containerAt?_writeRule_of_ne {other : String} (hne : selector ≠ other) :
    containerAt? [.rule other] (writeRule overwrite withBreak selector declarations nodes) =
      containerAt? [.rule other] nodes :=
  containerAt?_congr (find?_writeRule (by simpa using hne))

theorem containerAt?_writeModes (hne : selectors.light ≠ selectors.dark) (selector : String) :
    containerAt? [.rule selector] (writeModes version overwrite withBreak selectors vars nodes) =
      writtenIn overwrite (declarationsIn version selectors vars selector)
        (containerAt? [.rule selector] nodes) := by
  unfold writeModes declarationsIn
  split_ifs with hlight hdark
  · rw [hlight, containerAt?_writeRule_of_ne (Ne.symm hne), containerAt?_writeRule]
  · rw [hdark, containerAt?_writeRule, containerAt?_writeRule_of_ne hne]
  · rw [containerAt?_writeRule_of_ne (Ne.symm hdark), containerAt?_writeRule_of_ne (Ne.symm hlight)]
    rfl

/-- A rule inside a place is looked for in what is in the place. -/
theorem containerAt?_cons_rule (place : Place) (selector : String) (nodes : List Node) :
    containerAt? [place, .rule selector] nodes =
      containerAt? [.rule selector] (contentsOf place nodes) := by
  rw [containerAt?, contentsOf]
  cases find? place nodes <;> rfl

/-- A base layer that is added has no rules but its own. -/
theorem containerAt?_ensureBaseOf (hall : selector ≠ "*") (hbody : selector ≠ "body")
    (settings : Settings) (nodes : List Node) :
    containerAt? [baseLayer, .rule selector] (ensureBaseOf settings nodes) =
      containerAt? [baseLayer, .rule selector] nodes := by
  unfold ensureBaseOf
  split_ifs
  · rw [containerAt?_cons_rule, containerAt?_cons_rule]
    cases hfind : find? baseLayer nodes with
    -- a layer that is there stays the first one, whether or not a second one is added behind it
    | some layer =>
      rw [Css.contentsOf_congr
        ((find?_baseLayer_ensureBase hfind settings.version).trans hfind.symm)]
    -- without a layer there is no complete one, so that the new one is found, and it has rules for
    -- all elements and the body only
    | none =>
      have hbase : ¬nodes.any (isCompleteBase settings.version) := by
        intro hany
        obtain ⟨layer, hlayer, hcomplete⟩ := List.any_eq_true.mp hany
        have hat : baseLayer.isAt layer := (Bool.and_eq_true_iff.mp hcomplete).1
        exact List.find?_eq_none.mp hfind layer hlayer hat
      have hnew : find? baseLayer (ensureBase settings.version nodes) =
          some (newBase settings.version) := by
        rw [ensureBase, if_neg hbase]
        exact Css.find?_push_of_eq_none hfind (by cases settings.version <;> rfl) true
      rw [contentsOf, hnew, contentsOf, hfind]
      cases settings.version <;>
        simp [newBase, baseRules, Node.children, containerAt?, find?, Place.isAt, Node.selector?,
          hall.symm, hbody.symm]
  · rfl

/-- **The rule of a selector after an installation**, where a version keeps it: what was in it, with
the variables of the mode assigned if it is the rule of one. -/
theorem containerAt?_install (hall : selector ≠ "*") (hbody : selector ≠ "body") (vars : Variables)
    (settings : Settings) (options : Options) (nodes : List Node) :
    containerAt? (modePath settings.version selector)
        (install vars settings { options with cleanup := false } nodes) =
      writtenIn options.overwrite
        (declarationsIn settings.version (.ofRegistry options.registry) vars selector)
        (containerAt? (modePath settings.version selector) nodes) := by
  have hne := Selectors.light_ne_dark options.registry
  rw [install_steps]
  cases settings.version with
  | v3 =>
    dsimp only [modePath]
    rw [← baseLayer, containerAt?_ensureBaseOf hall hbody, containerAt?_cons_rule,
      contentsOf_installModes_v3, containerAt?_writeModes hne, containerAt?_cons_rule]
  | v4 =>
    dsimp only [modePath]
    have hbase (nodes : List Node) :
        containerAt? [.rule selector] (ensureBaseOf settings nodes) =
          containerAt? [.rule selector] nodes := by
      unfold ensureBaseOf
      split_ifs
      · exact containerAt?_congr (find?_ensureBase (by simp [baseLayer]) settings.version)
      · rfl
    have hvariant : (find? (.rule selector) (ensureDarkVariant nodes)).map Node.children =
        (find? (.rule selector) nodes).map Node.children :=
      (strewn_ensureDarkVariant nodes).children_find? fun _ hnode => hnode.not_isAt (by simp)
    rw [hbase, containerAt?_carryOver_of_ne (by simp) (by simp [inlineTheme]),
      containerAt?_congr (find?_updateTheme (by simp [inlineTheme])), installModes,
      containerAt?_writeModes hne, containerAt?_singleton, hvariant, containerAt?_singleton]

/-! ### Two registries -/

/-- An installation for one registry, without the removal of the scaffold. -/
def installFor (name : String) (vars : Variables) (settings : Settings) (options : Options)
    (nodes : List Node) : List Node :=
  install vars settings { options with registry := some name, cleanup := false } nodes

/-- The selectors for all elements, and those of a registry. -/
def isOfOthers (name : String) (selector : String) : Bool :=
  ((Selectors.ofRegistry none).modes ++ (Selectors.ofRegistry (some name)).modes).contains selector

theorem isOfOthers_iff {name : String} : isOfOthers name selector ↔
    selector ∈ (Selectors.ofRegistry none).modes ∨
      selector ∈ (Selectors.ofRegistry (some name)).modes := by
  rw [isOfOthers, List.contains_iff_mem, List.mem_append]

/-- The selectors of a registry are no one else's. -/
theorem not_isOfOthers {first second : String} (hne : first ≠ second)
    (h : selector ∈ (Selectors.ofRegistry (some first)).modes) : ¬isOfOthers second selector := by
  rw [isOfOthers_iff, not_or]
  refine ⟨fun hnone => ?_, Selectors.not_mem_modes_of_ne hne h⟩
  have hhead := head?_of_mem_modes h
  rcases List.mem_pair.mp hnone with rfl | rfl
  · exact absurd hhead (by decide)
  · exact absurd hhead (by decide)

theorem containerAt?_installFor {name other : String}
    (h : selector ∈ (Selectors.ofRegistry (some other)).modes) (vars : Variables)
    (settings : Settings) (options : Options) (nodes : List Node) :
    containerAt? (modePath settings.version selector)
        (installFor name vars settings options nodes) =
      writtenIn options.overwrite
        (declarationsIn settings.version (.ofRegistry (some name)) vars selector)
        (containerAt? (modePath settings.version selector) nodes) := by
  obtain ⟨hall, hbody⟩ := ne_of_mem_modes h
  exact containerAt?_install hall hbody vars settings { options with registry := some name } nodes

/-- **Registries keep to themselves.** An installation for one registry leaves what is in the rules
for all elements and in the rules of another registry as it is, wherever they occur. Rules of these
selectors may be added, but only in keyframes that are carried over. And of two installations,
either may come first: the rules of the modes of both registries are the same. -/
theorem registries_apart {first second : String} (h : first ≠ second) (vars others : Variables)
    (settings : Settings) (options otherOptions : Options) (nodes : List Node) :
    (∃ (front added back : List Occurrence),
      Css.occurrences (isOfOthers second) nodes = front ++ back ∧
      Css.occurrences (isOfOthers second) (installFor first vars settings options nodes) =
        front ++ added ++ back ∧
      ∀ occurrence ∈ added, settings.version = .v4 ∧ IsInKeyframes options.legacy occurrence) ∧
    ∀ selector ∈ (Selectors.ofRegistry (some first)).modes ++
        (Selectors.ofRegistry (some second)).modes,
      containerAt? (modePath settings.version selector)
          (installFor second others settings otherOptions
            (installFor first vars settings options nodes)) =
        containerAt? (modePath settings.version selector)
          (installFor first vars settings options
            (installFor second others settings otherOptions nodes)) := by
  constructor
  · have hbase (selector : String) (hothers : isOfOthers second selector) :
        selector ≠ "*" ∧ selector ≠ "body" :=
      (isOfOthers_iff.mp hothers).elim ne_of_mem_modes ne_of_mem_modes
    exact exists_occurrences_install vars settings { options with registry := some first }
      (fun selector => not_isOfOthers h) (fun hall => (hbase _ hall).1 rfl)
      (fun hbody => (hbase _ hbody).2 rfl) nodes
  · intro selector hmem
    -- what the other registry writes in this rule is nothing, before or after
    rcases List.mem_append.mp hmem with hmem | hmem
    · have hnone := declarationsIn_eq_nil (Selectors.not_mem_modes_of_ne h hmem)
        settings.version others
      simp only [containerAt?_installFor hmem, hnone, writtenIn_nil]
    · have hnone := declarationsIn_eq_nil (Selectors.not_mem_modes_of_ne (Ne.symm h) hmem)
        settings.version vars
      simp only [containerAt?_installFor hmem, hnone, writtenIn_nil]

/-- Two registries in a layer that has a rule of one of them already. -/
theorem registries_apart_layer :
    let acme : String := "[data-registry=\"acme\"]"
    let inner : List Node := [.rule ":root" [.declaration "--gap" "4px" {}] {}, .rule acme [] {}]
    let nodes : List Node := [.block "layer" "base" inner {}]
    let vars : Variables := { light := [("gap", "8px")], dark := [("gap", "2px")] }
    let others : Variables := { light := [("gap", "1px")] }
    let acmeFirst := installFor "other" others {} {} (installFor "acme" vars {} {} nodes)
    let acmeSecond := installFor "acme" vars {} {} (installFor "other" others {} {} nodes)
    Css.occurrences (isOfOthers "other") nodes =
        [⟨[baseLayer, .rule ":root"], [.declaration "--gap" "4px" {}]⟩] ∧
      (∃ (front added back : List Occurrence),
        Css.occurrences (isOfOthers "other") nodes = front ++ back ∧
        Css.occurrences (isOfOthers "other") (installFor "acme" vars {} {} nodes) =
          front ++ added ++ back ∧
        ∀ occurrence ∈ added, Version.v3 = .v4 ∧ IsInKeyframes none occurrence) ∧
      containerAt? [baseLayer, .rule acme] acmeFirst = containerAt? [baseLayer, .rule acme] acmeSecond := by
  intro acme inner nodes vars others acmeFirst acmeSecond
  have hne : "acme" ≠ "other" := by decide
  obtain ⟨hspared, hsame⟩ := registries_apart hne vars others {} {} {} nodes
  exact ⟨rfl, hspared, hsame acme (by decide)⟩

end Restyle.Theme
