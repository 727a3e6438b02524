import Restyle.Proofs.Css.Blindness
import Restyle.Proofs.Theme.Installed
import Restyle.Proofs.Theme.Persistence

/-!
# Replacing values afterwards

An installation that may replace values comes to the same as one that may not, with the values
replaced in the end (`Restyle.Theme.install_overwrite`). Where a new declaration goes does not
depend on whether it may replace others: both installations make the same places and declare the
same properties at the same positions.

The replacing is done step by step, and then moved behind all later steps. These are beside the
rules of the modes (`Restyle.Css.IsBeside`), or they work on the theme as well and are blind to
its values (`Restyle.Css.IsBlind`).
-/

namespace Restyle.Theme

open Restyle.Css (IsBeside IsBlind KeepsSome Node NodesPersist Place anyWrites containerAt? find?
  inside isDeclared)
open Restyle.Project (Settings Version)

variable {overwrite withBreak : Bool} {selector : String} {declarations : List (String × String)}
  {nodes : List Node} {version : Version} {selectors : Selectors} {vars : Variables}
  {place : Place} {f g : List Node → List Node}

/-! ### In one container -/

/-- What is blind does not look at values that are replaced. -/
theorem assignAll_comm (hf : IsBlind f)
    (hdeclared : ∀ declaration ∈ declarations, isDeclared declaration.1 nodes) :
    f (assignAll true declarations nodes) = assignAll true declarations (f nodes) := by
  induction declarations generalizing nodes with
  | nil => rfl
  | cons declaration rest ih =>
    obtain ⟨hfirst, hrest⟩ := List.forall_mem_cons.mp hdeclared
    have hstep : f (assignAll true rest (Css.declare declaration.1 declaration.2 nodes)) =
        assignAll true rest (f (Css.declare declaration.1 declaration.2 nodes)) :=
      ih fun other hother => by
        rw [Css.isDeclared_declare_of_isDeclared hfirst]
        exact hrest other hother
    rw [hf.comm declaration.2 hfirst] at hstep
    exact hstep

/-- **Writes that may replace** are writes that may not, with the values replaced in the end. -/
theorem foldl_eq_assignAll (write keep : String → String → List Node → List Node)
    (hwrite : ∀ property value nodes,
      write property value nodes = Css.declare property value (keep property value nodes))
    (hdeclared : ∀ property value nodes, isDeclared property (keep property value nodes))
    (hblind : ∀ property value, IsBlind (keep property value))
    (declarations : List (String × String)) (nodes : List Node) :
    declarations.foldl (fun nodes declaration => write declaration.1 declaration.2 nodes) nodes =
      assignAll true declarations
        (declarations.foldl (fun nodes declaration => keep declaration.1 declaration.2 nodes)
          nodes) := by
  induction declarations generalizing nodes with
  | nil => rfl
  | cons declaration rest ih =>
    have hrest : IsBlind fun nodes => rest.foldl
        (fun nodes declaration => keep declaration.1 declaration.2 nodes) nodes :=
      .foldl fun other _ => hblind other.1 other.2
    rw [List.foldl_cons, ih, hwrite, hrest.comm _ (hdeclared _ _ _)]
    rfl

theorem declare_assign_false (property value : String) (nodes : List Node) :
    Css.declare property value (Css.assign false property value nodes) =
      Css.declare property value nodes := by
  rw [Css.assign_false]
  split_ifs with hdeclared
  · rfl
  · rw [← Css.declare_eq_append hdeclared, Css.declare_declare]

theorem assignAll_assignAll_false (declarations : List (String × String)) (nodes : List Node) :
    assignAll true declarations nodes =
      assignAll true declarations (assignAll false declarations nodes) :=
  foldl_eq_assignAll (Css.assign true) (Css.assign false)
    (fun property value nodes => (declare_assign_false property value nodes).symm)
    (fun property value nodes => by
      obtain ⟨old, hold, -⟩ := (isWrite_assign false).written property value nodes
      rw [← Css.isSome_valueOf?, hold]
      rfl)
    Css.isBlind_assign declarations nodes

theorem isDeclared_insertProperty (property value : String) (nodes : List Node) :
    isDeclared property (Css.insertProperty property value nodes) := by
  obtain ⟨old, hold, -⟩ := isWrite_insertProperty.written property value nodes
  rw [← Css.isSome_valueOf?, hold]
  rfl

/-- An entry that may not replace is inserted or nothing. -/
theorem writeEntry_false (property value : String) (nodes : List Node) :
    writeEntry false property value nodes = Css.insertProperty property value nodes := by
  unfold writeEntry
  split_ifs with hdeclared
  · rw [Css.assign_false, Css.insertProperty, if_pos hdeclared, if_pos hdeclared]
  · rfl

theorem writeEntry_true (property value : String) (nodes : List Node) :
    writeEntry true property value nodes =
      Css.declare property value (Css.insertProperty property value nodes) := by
  by_cases hdeclared : isDeclared property nodes
  · rw [writeEntry, if_pos hdeclared, Css.insertProperty, if_pos hdeclared]
    rfl
  · obtain ⟨old, hold, hvalue⟩ := (isWrite_writeEntry true).written property value nodes
    obtain rfl := hvalue rfl
    rw [writeEntry, if_neg hdeclared] at hold ⊢
    rw [Css.declare_eq_self hold]

theorem foldl_writeThemeEntry_true (entries : Entries String) (nodes : List Node) :
    entries.foldl (writeThemeEntry true) nodes =
      assignAll true (themeDeclarations entries)
        (entries.foldl (writeThemeEntry false) nodes) := by
  rw [foldl_writeThemeEntry, foldl_writeThemeEntry]
  simp only [writeEntry_false]
  exact foldl_eq_assignAll (writeEntry true) Css.insertProperty writeEntry_true
    isDeclared_insertProperty Css.isBlind_insertProperty (themeDeclarations entries) nodes

/-! ### At one place -/

theorem keepsSome_of_persist (h : ∀ nodes, NodesPersist anyWrites [] nodes (f nodes)) :
    KeepsSome f := by
  intro nodes hne
  obtain ⟨node, hnode⟩ := List.exists_mem_of_ne_nil nodes hne
  obtain ⟨kept, hkept, -⟩ := (h nodes).exists_alike hnode
  exact List.ne_nil_of_mem hkept

theorem keepsSome_assignAll (declarations : List (String × String)) :
    KeepsSome (assignAll true declarations) :=
  keepsSome_of_persist (nodesPersist_assignAll fun _ _ _ => trivial)

/-- The last part of an edit at a place, done afterwards. -/
theorem enter_comp (hf : KeepsSome f) (place : Place) (withBreak : Bool)
    (g : List Node → List Node) (nodes : List Node) :
    Css.enter place withBreak (fun nodes => f (g nodes)) nodes =
      inside place f (Css.enter place withBreak g nodes) :=
  (Css.inside_inside hf _).symm

theorem inside_assignAll_nil (place : Place) (nodes : List Node) :
    inside place (assignAll true []) nodes = nodes :=
  Css.inside_eq_self fun _ _ => rfl

/-- Declarations are there at a place, whatever their values, if there are any. -/
def IsDeclaredIn (place : Place) (declarations : List (String × String)) (nodes : List Node) :
    Prop :=
  declarations = [] ∨ ∃ inner, containerAt? [place] nodes = some inner ∧
    ∀ declaration ∈ declarations, isDeclared declaration.1 inner

theorem IsDeclaredIn.of_persist {again : List Node} (h : IsDeclaredIn place declarations nodes)
    (hpersist : NodesPersist anyWrites [] nodes again) : IsDeclaredIn place declarations again := by
  refine h.imp_right ?_
  rintro ⟨inner, hinner, hdeclared⟩
  obtain ⟨inner', hinner', hpersist'⟩ := hpersist.containerAt? hinner
  exact ⟨inner', hinner', fun declaration hmem => hpersist'.isDeclared (hdeclared declaration hmem)⟩

/-- **A blind edit at a place** does the same whatever values are replaced there. -/
theorem enter_inside_comm (hdeclared : IsDeclaredIn place declarations nodes) (hg : IsBlind g)
    (hsome : KeepsSome g) (withBreak : Bool) :
    Css.enter place withBreak g (inside place (assignAll true declarations) nodes) =
      inside place (assignAll true declarations) (Css.enter place withBreak g nodes) := by
  rcases hdeclared with rfl | ⟨inner, hinner, hdeclared⟩
  · rw [inside_assignAll_nil, inside_assignAll_nil]
  · rw [containerAt?_singleton, Option.map_eq_some_iff] at hinner
    obtain ⟨node, hnode, rfl⟩ := hinner
    have hfilled : find? place (inside place (assignAll true declarations) nodes) =
        some (node.fill (assignAll true declarations)) := by
      rw [Css.find?_inside, hnode, Option.map_some]
    rw [Css.enter_eq_inside hfilled, Css.enter_eq_inside hnode, Css.inside_inside hsome,
      Css.inside_inside (keepsSome_assignAll declarations)]
    refine Css.inside_congr fun other hother => ?_
    obtain rfl : node = other := Option.some.inj (hnode.symm.trans hother)
    exact assignAll_comm hg hdeclared

/-! ### The modes -/

/-- The values of the variables of both modes, in place of those that are there. -/
def replaceModes (version : Version) (selectors : Selectors) (vars : Variables)
    (nodes : List Node) : List Node :=
  inside (.rule selectors.dark) (assignAll true (declarationsFor version vars.dark))
    (inside (.rule selectors.light) (assignAll true (declarationsFor version vars.light)) nodes)

theorem writeRule_true (nodes : List Node) :
    writeRule true withBreak selector declarations nodes =
      inside (.rule selector) (assignAll true declarations)
        (writeRule false withBreak selector declarations nodes) := by
  unfold writeRule
  split_ifs with hempty
  · rw [List.isEmpty_iff.mp hempty, inside_assignAll_nil]
  · rw [← enter_comp (keepsSome_assignAll declarations)]
    congr 1
    funext nodes
    exact assignAll_assignAll_false declarations nodes

theorem isBeside_writeRule (hne : .rule selector ≠ place) :
    IsBeside place (writeRule overwrite withBreak selector declarations) :=
  (Css.isBeside_enter hne withBreak _).otherwise

theorem writeModes_true (hne : selectors.light ≠ selectors.dark) (nodes : List Node) :
    writeModes version true withBreak selectors vars nodes =
      replaceModes version selectors vars
        (writeModes version false withBreak selectors vars nodes) := by
  rw [writeModes, writeRule_true, writeRule_true,
    isBeside_writeRule (by simpa using Ne.symm hne), replaceModes, writeModes]

theorem replaceModes_eq_self (hlight : vars.light = []) (hdark : vars.dark = [])
    (nodes : List Node) : replaceModes version selectors vars nodes = nodes := by
  rw [replaceModes, hlight, hdark]
  exact (inside_assignAll_nil _ _).trans (inside_assignAll_nil _ _)

/-- What is beside all rules may as well be done first. -/
theorem replaceModes_comm (hg : ∀ selector, IsBeside (.rule selector) g) (nodes : List Node) :
    g (replaceModes version selectors vars nodes) =
      replaceModes version selectors vars (g nodes) := by
  rw [replaceModes, hg, hg, replaceModes]

theorem keepsSome_replaceModes : KeepsSome (replaceModes version selectors vars) :=
  fun _ hne => Css.keepsSome_inside _ _ _ (Css.keepsSome_inside _ _ _ hne)

/-- A declaration is at no place. -/
theorem any_isAt_declare (place : Place) (property value : String) (nodes : List Node) :
    (Css.declare property value nodes).any place.isAt = nodes.any place.isAt := by
  have hnot (other value : String) (layout : Css.Layout) :
      place.isAt (.declaration other value layout) = false := by
    cases place <;> rfl
  induction nodes with
  | nil => simp [Css.declare, hnot]
  | cons node rest ih =>
    by_cases hnode : node.declares property
    · rw [Css.declare_cons_of_declares hnode]
      cases node <;> simp_all [Node.declares, Node.declaration?]
    · rw [Css.declare_cons_of_not_declares hnode, List.any_cons, List.any_cons, ih]

theorem any_isAt_assignAll (place : Place) (declarations : List (String × String))
    (nodes : List Node) :
    (assignAll true declarations nodes).any place.isAt = nodes.any place.isAt := by
  induction declarations generalizing nodes with
  | nil => rfl
  | cons declaration rest ih =>
    exact (ih (Css.declare declaration.1 declaration.2 nodes)).trans
      (any_isAt_declare place declaration.1 declaration.2 nodes)

/-- Values in a rule are no matter to what it applies. -/
theorem applies_replaceModes (nodes : List Node) :
    applies (replaceModes version selectors vars nodes) = applies nodes := by
  have hinside (selector : String) (declarations : List (String × String)) (nodes : List Node) :
      applies (inside (.rule selector) (assignAll true declarations) nodes) = applies nodes := by
    funext rule
    unfold applies
    by_cases hsame : selector = rule.1
    · rw [hsame, Css.find?_inside]
      cases hfind : find? (.rule rule.1) nodes with
      | none => rfl
      | some found =>
        rw [Option.map_some]
        dsimp only
        rw [Node.children_fill (Css.isAt_of_find? hfind), any_isAt_assignAll]
    · rw [Css.find?_inside_of_ne (by simpa using hsame)]
  rw [replaceModes, hinside, hinside]

theorem installModes_true (hne : selectors.light ≠ selectors.dark) (nodes : List Node) :
    installModes version true selectors vars nodes =
      match version with
      | .v3 => inside baseLayer (replaceModes .v3 selectors vars)
          (installModes .v3 false selectors vars nodes)
      | .v4 => replaceModes .v4 selectors vars (installModes .v4 false selectors vars nodes) := by
  cases version with
  | v3 =>
    unfold installModes
    dsimp only
    split_ifs with hempty
    · simp only [Bool.and_eq_true, List.isEmpty_iff] at hempty
      exact (Css.inside_eq_self fun node _ => replaceModes_eq_self hempty.1 hempty.2 _).symm
    · rw [← enter_comp keepsSome_replaceModes]
      congr 1
      funext nodes
      exact writeModes_true hne nodes
  | v4 => exact writeModes_true hne nodes

/-! ### The theme -/

theorem isBlind_insertAll (declarations : List (String × String)) :
    IsBlind (insertAll declarations) :=
  .foldl fun declaration _ => Css.isBlind_insertProperty declaration.1 declaration.2

theorem keepsSome_insertAll (declarations : List (String × String)) :
    KeepsSome (insertAll declarations) :=
  keepsSome_of_persist (nodesPersist_insertAll declarations)

theorem updateTheme_true (nodes : List Node) :
    updateTheme true vars nodes =
      inside inlineTheme (assignAll true (themeDeclarations vars.theme))
        (updateTheme false vars nodes) := by
  unfold updateTheme
  split_ifs with hempty
  · simp only [Variables.isEmpty, Bool.and_eq_true, List.isEmpty_iff] at hempty
    rw [hempty.1.1]
    exact (inside_assignAll_nil _ _).symm
  · rw [← enter_comp (keepsSome_assignAll _)]
    congr 1
    funext theme
    rw [foldl_writeThemeEntry_true]
    exact assignAll_comm (isBlind_insertAll (mirrors vars)) fun declaration hmem =>
      (settled_writeThemeEntry false vars.theme theme).isDeclared hmem

theorem isBeside_updateTheme (hne : inlineTheme ≠ place) :
    IsBeside place (updateTheme overwrite vars) :=
  (Css.isBeside_enter hne true _).otherwise

theorem isDeclaredIn_updateTheme (nodes : List Node) :
    IsDeclaredIn inlineTheme (themeDeclarations vars.theme) (updateTheme overwrite vars nodes) := by
  rcases hasTheme_updateTheme overwrite vars nodes with hempty | ⟨theme, htheme, hentries, -⟩
  · simp only [Variables.isEmpty, Bool.and_eq_true, List.isEmpty_iff] at hempty
    exact .inl (by rw [hempty.1.1]; rfl)
  · exact .inr ⟨theme, htheme, fun declaration hmem => hentries.isDeclared hmem⟩

/-! ### What is carried over -/

theorem leadingText_inside (place : Place) (f : List Node → List Node) (nodes : List Node) :
    leadingText (inside place f nodes) = leadingText nodes := by
  have hfill (node : Node) (rest rest' : List Node) :
      leadingText (node.fill f :: rest) = leadingText (node :: rest') := by
    cases node with
    | statement name params layout =>
      unfold Node.fill
      split_ifs <;> rfl
    | _ => rfl
  cases nodes with
  | nil => rfl
  | cons node rest =>
    by_cases hat : place.isAt node
    · rw [Css.inside_cons_of_isAt hat, hfill]
    · rw [Css.inside_cons_of_not_isAt hat]
      cases node <;> rfl

theorem isBeside_migratePlugins (hplace : ∀ params, place ≠ .atRule "plugin" params)
    (plugins : List String) : IsBeside place (migratePlugins plugins) := by
  intro f nodes
  unfold migratePlugins quoteOf
  rw [leadingText_inside]
  exact IsBeside.foldl (fun plugin _ => Css.isBeside_ensurePlugin hplace _) f nodes

theorem isBeside_migrateAnimations (hne : inlineTheme ≠ place) (animation : Entries String) :
    IsBeside place (migrateAnimations animation) :=
  (Css.isBeside_enter hne true _).otherwise

theorem isBeside_migrateKeyframes (hne : inlineTheme ≠ place)
    (keyframes : Entries (Entries (Entries String))) :
    IsBeside place (migrateKeyframes keyframes) :=
  (Css.isBeside_enter hne true _).otherwise

theorem isBeside_migrate (hplace : ∀ params, place ≠ .atRule "plugin" params)
    (hne : inlineTheme ≠ place) (legacy : Legacy) : IsBeside place (migrate legacy) :=
  (isBeside_migrateKeyframes hne legacy.keyframes).comp
    ((isBeside_migrateAnimations hne legacy.animation).comp
      (isBeside_migratePlugins hplace legacy.plugins))

theorem isBlind_addKeyframes (keyframes : Entries (Entries (Entries String))) :
    IsBlind (addKeyframes keyframes) := by
  refine .foldl fun entry _ => ?_
  have hpush := Css.isBlind_push true (keyframesNode entry.1 entry.2)
  constructor
  · intro property nodes hdeclared
    dsimp only
    split_ifs
    · exact hdeclared
    · exact hpush.keeps hdeclared
  · intro property nodes value hdeclared
    dsimp only
    rw [any_isAt_declare]
    split_ifs
    · rfl
    · exact hpush.comm value hdeclared

theorem keepsSome_addKeyframes (keyframes : Entries (Entries (Entries String))) :
    KeepsSome (addKeyframes keyframes) :=
  keepsSome_of_persist (nodesPersist_addKeyframes keyframes)

/-- **What is carried over** does not look at the values of the theme. -/
theorem migrate_inside_comm (hdeclared : IsDeclaredIn inlineTheme declarations nodes)
    (legacy : Legacy) :
    migrate legacy (inside inlineTheme (assignAll true declarations) nodes) =
      inside inlineTheme (assignAll true declarations) (migrate legacy nodes) := by
  have hplugins := hdeclared.of_persist (nodesPersist_migratePlugins legacy.plugins nodes)
  have hanimations := hplugins.of_persist (nodesPersist_migrateAnimations legacy.animation _)
  have hanimate : migrateAnimations legacy.animation
      (inside inlineTheme (assignAll true declarations) (migratePlugins legacy.plugins nodes)) =
      inside inlineTheme (assignAll true declarations)
        (migrateAnimations legacy.animation (migratePlugins legacy.plugins nodes)) := by
    unfold migrateAnimations
    split_ifs
    · rfl
    · exact enter_inside_comm hplugins (isBlind_insertAll _) (keepsSome_insertAll _) true
  rw [migrate, isBeside_migratePlugins (by simp [inlineTheme]), hanimate, migrate]
  unfold migrateKeyframes
  split_ifs
  · rfl
  · exact enter_inside_comm hanimations (isBlind_addKeyframes legacy.keyframes)
      (keepsSome_addKeyframes legacy.keyframes) true

theorem carryOver_inside_comm (hdeclared : IsDeclaredIn inlineTheme declarations nodes)
    (legacy : Option Legacy) :
    carryOver legacy (inside inlineTheme (assignAll true declarations) nodes) =
      inside inlineTheme (assignAll true declarations) (carryOver legacy nodes) := by
  cases legacy with
  | none => rfl
  | some legacy => exact migrate_inside_comm hdeclared legacy

theorem isBeside_carryOver (hplace : ∀ params, place ≠ .atRule "plugin" params)
    (hne : inlineTheme ≠ place) (legacy : Option Legacy) : IsBeside place (carryOver legacy) := by
  cases legacy with
  | none => exact fun _ _ => rfl
  | some legacy => exact isBeside_migrate hplace hne legacy

/-! ### The base layer -/

theorem isBeside_ensureBase (hne : place ≠ baseLayer) (version : Version) :
    IsBeside place (ensureBase version) := by
  intro f nodes
  have hany : (inside place f nodes).any (isCompleteBase version) =
      nodes.any (isCompleteBase version) := by
    refine Css.any_congr_map (Css.map_inside (fun node hat => ?_) nodes)
    have hnot : baseLayer.isAt node = false := by
      simpa using Place.not_isAt_of_ne hat hne
    rw [isCompleteBase, isCompleteBase, Place.isAt_fill, hnot, Bool.false_and, Bool.false_and]
  unfold ensureBase
  rw [hany]
  split_ifs
  · rfl
  · exact Css.isBeside_push (not_isAt_newBase hne version) true f nodes

theorem isBeside_ensureBaseOf (hne : place ≠ baseLayer) (settings : Settings) :
    IsBeside place (ensureBaseOf settings) := by
  intro f nodes
  unfold ensureBaseOf
  split_ifs
  · exact isBeside_ensureBase hne settings.version f nodes
  · rfl

/-- Nor does it matter what values the rules of the first base layer hold. -/
theorem ensureBase_inside_comm {version' : Version} (hlayer : nodes.any baseLayer.isAt) :
    ensureBase version (inside baseLayer (replaceModes version' selectors vars) nodes) =
      inside baseLayer (replaceModes version' selectors vars) (ensureBase version nodes) := by
  have hany : (inside baseLayer (replaceModes version' selectors vars) nodes).any
      (isCompleteBase version) = nodes.any (isCompleteBase version) := by
    refine Css.any_congr_map (Css.map_inside (fun node hat => ?_) nodes)
    rw [isCompleteBase, isCompleteBase, Place.isAt_fill, Node.children_fill hat,
      applies_replaceModes]
  unfold ensureBase
  rw [hany]
  split_ifs
  · rfl
  · rw [Css.push, Css.push, Css.isEmpty_inside]
    split_ifs <;> rw [Css.inside_append_of_any hlayer]

/-! ### The whole installation -/

/-- All values of variables, in place of those that are there. -/
def replaceValues (vars : Variables) (settings : Settings) (options : Options)
    (nodes : List Node) : List Node :=
  let selectors := Selectors.ofRegistry options.registry
  match settings.version with
  | .v3 => inside baseLayer (replaceModes .v3 selectors vars) nodes
  | .v4 => inside inlineTheme (assignAll true (themeDeclarations vars.theme))
      (replaceModes .v4 selectors vars nodes)

variable {settings : Settings} {options : Options}

/-- In version 3, all values are in the base layer. -/
theorem ensureBaseOf_installModes_true (hne : selectors.light ≠ selectors.dark)
    (nodes : List Node) :
    ensureBaseOf settings (installModes .v3 true selectors vars nodes) =
      inside baseLayer (replaceModes .v3 selectors vars)
        (ensureBaseOf settings (installModes .v3 false selectors vars nodes)) := by
  rw [installModes_true hne]
  dsimp only
  by_cases hempty : vars.light = [] ∧ vars.dark = []
  · have hself (nodes : List Node) :
        inside baseLayer (replaceModes .v3 selectors vars) nodes = nodes :=
      Css.inside_eq_self fun node _ => replaceModes_eq_self hempty.1 hempty.2 _
    rw [hself, hself]
  · unfold ensureBaseOf
    split_ifs
    · refine ensureBase_inside_comm ?_
      have hsome : ¬(vars.light.isEmpty && vars.dark.isEmpty) = true := by
        simpa only [Bool.and_eq_true, List.isEmpty_iff] using hempty
      unfold installModes
      dsimp only
      rw [if_neg hsome, Css.enter, Css.any_isAt_inside]
      exact Merge.any_isAt_reach baseLayer true nodes
    · rfl

/-- **An installation that may replace values** is one that may not, with the values replaced in
the end. -/
theorem install_overwrite (vars : Variables) (settings : Settings) (options : Options)
    (nodes : List Node) :
    install vars settings { options with overwrite := true, cleanup := false } nodes =
      replaceValues vars settings options
        (install vars settings { options with overwrite := false, cleanup := false } nodes) := by
  have hne := Selectors.light_ne_dark options.registry
  have hsteps (overwrite : Bool) :=
    install_steps vars settings { options with overwrite := overwrite } nodes
  rw [hsteps true, hsteps false, replaceValues]
  cases hversion : settings.version with
  | v3 => exact ensureBaseOf_installModes_true hne nodes
  | v4 =>
    dsimp only
    -- The values of the theme are moved out first, where it is known that they are declared.
    rw [updateTheme_true, carryOver_inside_comm (isDeclaredIn_updateTheme _),
      isBeside_ensureBaseOf (by simp [inlineTheme, baseLayer]), installModes_true hne]
    dsimp only
    rw [replaceModes_comm fun selector => isBeside_updateTheme (by simp [inlineTheme]),
      replaceModes_comm fun selector =>
        isBeside_carryOver (by simp) (by simp [inlineTheme]) options.legacy,
      replaceModes_comm fun selector => isBeside_ensureBaseOf (by simp [baseLayer]) settings]

end Restyle.Theme
