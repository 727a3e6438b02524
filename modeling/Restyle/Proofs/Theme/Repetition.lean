import Restyle.Proofs.Theme.Overwriting

/-!
# Installing variables twice

Installing variables twice is the same as installing them once, where the one time may replace
values if one of the two may (`Restyle.Theme.install_install`) – for any style sheet, any
variables and any older configuration, if the scaffold is not removed.

After an installation everything that it writes is there (`Restyle.Theme.IsInstalled`,
`Restyle.Theme.IsCarriedOver`), so that a second one finds nothing to do, unless it is the first
one that may replace values. Then the two come to the first one with the values replaced in the
end, and so does an installation that may replace values to begin with
(`Restyle.Theme.install_overwrite`).

What the later steps of an installation leave alone is settled by what persists: they write no
value that is there, and hide nothing.
-/

namespace Restyle.Theme

open Restyle.Css (Node NodesPersist Place anyWrites containerAt? find? isDeclared noWrites valueOf?)
open Restyle.Project (Settings Version)

variable {overwrite : Bool} {selector : String} {declarations : List (String × String)}
  {nodes again : List Node} {version : Version} {selectors : Selectors} {vars : Variables}
  {settings : Settings} {options : Options} {legacy : Legacy}

/-! ### What persists stays installed -/

theorem Settled.of_persist {seen : List Node} (h : Settled overwrite declarations nodes)
    (hpersist : NodesPersist noWrites seen nodes again) :
    Settled overwrite declarations again := by
  refine h.congr fun property old hold => ?_
  obtain ⟨value, hvalue, hsame⟩ := hpersist.valueOf? hold
  rw [hvalue, hsame.resolve_right id]

theorem SettledIn.of_persist (h : SettledIn overwrite selector declarations nodes)
    (hpersist : NodesPersist noWrites [] nodes again) :
    SettledIn overwrite selector declarations again := by
  refine h.imp_right ?_
  rintro ⟨inner, hinner, hsettled⟩
  obtain ⟨inner', hinner', hpersist'⟩ := hpersist.containerAt? hinner
  exact ⟨inner', hinner', hsettled.of_persist hpersist'⟩

theorem HasRules.of_persist (h : HasRules version overwrite selectors vars nodes)
    (hpersist : NodesPersist noWrites [] nodes again) :
    HasRules version overwrite selectors vars again :=
  ⟨h.light.of_persist hpersist, h.dark.of_persist hpersist⟩

theorem HasModes.of_persist (h : HasModes version overwrite selectors vars nodes)
    (hpersist : NodesPersist noWrites [] nodes again) :
    HasModes version overwrite selectors vars again := by
  cases version with
  | v3 =>
    refine Or.imp_right ?_ h
    rintro ⟨layer, hlayer, hrules⟩
    obtain ⟨layer', hlayer', hpersist'⟩ := hpersist.containerAt? hlayer
    exact ⟨layer', hlayer', hrules.of_persist hpersist'⟩
  | v4 => exact HasRules.of_persist h hpersist

theorem HasTheme.of_persist (h : HasTheme overwrite vars nodes)
    (hpersist : NodesPersist noWrites [] nodes again) : HasTheme overwrite vars again := by
  refine Or.imp_right ?_ h
  rintro ⟨theme, htheme, hentries, hmirrors⟩
  obtain ⟨theme', htheme', hpersist'⟩ := hpersist.containerAt? htheme
  exact ⟨theme', htheme', hentries.of_persist hpersist', hmirrors.of_persist hpersist'⟩

theorem HasVariant.of_persist (h : HasVariant nodes)
    (hpersist : NodesPersist noWrites [] nodes again) : HasVariant again :=
  hpersist.any (fun halike => halike.isAtRuleNamed _) h

/-! ### What was carried over -/

/-- A plugin by its package, in double quotes. -/
def quotedPackage (plugin : String) : String :=
  Css.quotedPlugin ("\"" ++ packageName plugin ++ "\"")

/-- The declarations of animations. -/
def animationDeclarations (animation : Entries String) : List (String × String) :=
  animation.map fun (name, value) => ("--animate-" ++ name, value)

/-- **An older configuration is carried over** where everything in it is there, whatever the
values of the animations and the steps of the keyframes. -/
structure IsCarriedOver (legacy : Legacy) (nodes : List Node) : Prop where
  plugins : ∀ plugin ∈ legacy.plugins, nodes.any (Node.loadsPlugin (quotedPackage plugin))
  animations : IsDeclaredIn inlineTheme (animationDeclarations legacy.animation) nodes
  keyframes : legacy.keyframes = [] ∨ ∃ theme, containerAt? [inlineTheme] nodes = some theme ∧
    ∀ entry ∈ legacy.keyframes, theme.any (Place.atRule "keyframes" entry.1).isAt

theorem any_loadsPlugin_of_persist {quoted : String}
    (h : nodes.any (Node.loadsPlugin quoted)) (hpersist : NodesPersist anyWrites [] nodes again) :
    again.any (Node.loadsPlugin quoted) :=
  hpersist.any (fun halike => by rw [Node.loadsPlugin, Node.loadsPlugin, halike.atRule]) h

theorem any_isAt_of_persist {place : Place} (h : nodes.any place.isAt)
    (hpersist : NodesPersist anyWrites [] nodes again) : again.any place.isAt :=
  hpersist.any (fun halike => halike.isAt place) h

theorem IsCarriedOver.of_persist (h : IsCarriedOver legacy nodes)
    (hpersist : NodesPersist anyWrites [] nodes again) : IsCarriedOver legacy again where
  plugins plugin hmem := any_loadsPlugin_of_persist (h.plugins plugin hmem) hpersist
  animations := h.animations.of_persist hpersist
  keyframes := by
    refine h.keyframes.imp_right ?_
    rintro ⟨theme, htheme, hthere⟩
    obtain ⟨theme', htheme', hpersist'⟩ := hpersist.containerAt? htheme
    exact ⟨theme', htheme', fun entry hmem => any_isAt_of_persist (hthere entry hmem) hpersist'⟩

/-! ### Edits that are made one after the other -/

section Fold

variable {α : Type} {edit : List Node → α → List Node} {edits : List α}

/-- Edits of which none finds anything to do. -/
theorem foldl_eq_self (h : ∀ x ∈ edits, edit nodes x = nodes) : edits.foldl edit nodes = nodes := by
  induction edits with
  | nil => rfl
  | cons first rest ih =>
    obtain ⟨hfirst, hrest⟩ := List.forall_mem_cons.mp h
    rw [List.foldl_cons, hfirst, ih hrest]

/-- What each edit leaves there is there after all of them. -/
theorem foldl_leaves {P : α → List Node → Prop} (hleaves : ∀ x nodes, P x (edit nodes x))
    (hkeeps : ∀ x y nodes, P x nodes → P x (edit nodes y)) (nodes : List Node) :
    ∀ x ∈ edits, P x (edits.foldl edit nodes) := by
  induction edits generalizing nodes with
  | nil => simp
  | cons first rest ih =>
    intro x hx
    rcases List.mem_cons.mp hx with rfl | hx
    · -- The first edit leaves it, and the others keep it.
      have hrest : ∀ (ys : List α) (nodes : List Node), P x nodes → P x (ys.foldl edit nodes) := by
        intro ys
        induction ys with
        | nil => exact fun _ h => h
        | cons y ys ihys => exact fun nodes h => ihys (edit nodes y) (hkeeps x y nodes h)
      exact hrest rest (edit nodes x) (hleaves x nodes)
    · exact ih (edit nodes first) x hx

end Fold

/-! ### Plugins -/

/-- A package is the same plugin in quotes of either kind. -/
theorem quotedPlugin_quoteOf (nodes : List Node) (name : String) :
    Css.quotedPlugin (quoteOf nodes ++ name ++ quoteOf nodes) =
      Css.quotedPlugin ("\"" ++ name ++ "\"") := by
  have hquoted {c : Char} (hblank : ¬Text.isBlank c) (hc : Css.isQuote c) :
      Css.quotedPlugin (String.ofList [c] ++ name ++ String.ofList [c]) = String.ofList ('"' ::
        (((name.toList.dropWhile Css.isQuote).rdropWhile Css.isQuote) ++ ['"'])) := by
    have hlist : (String.ofList [c] ++ name ++ String.ofList [c]).toList =
        c :: (name.toList ++ [c]) := by simp
    rw [Css.quotedPlugin, hlist, Text.trim_between hblank hblank]
    simp only [Text.dropEndWhile_eq_rdropWhile, Css.bare_quoted hc]
  have hdouble := hquoted (c := '"') (by decide) (by decide)
  have hsingle := hquoted (c := '\'') (by decide) (by decide)
  unfold quoteOf
  split_ifs
  · exact hsingle.trans hdouble.symm
  · rfl

theorem any_loadsPlugin_migratePlugins (plugins : List String) (nodes : List Node) :
    ∀ plugin ∈ plugins,
      (migratePlugins plugins nodes).any (Node.loadsPlugin (quotedPackage plugin)) := by
  refine foldl_leaves (P := fun plugin nodes => nodes.any (Node.loadsPlugin (quotedPackage plugin)))
    (fun plugin others => ?_) (fun plugin other others hloaded => ?_) nodes
  · rw [quotedPackage, ← quotedPlugin_quoteOf nodes]
    exact (Merge.Edit.plugin _).holds_make others
  · exact any_loadsPlugin_of_persist hloaded
      (Css.sheetGrows_ensurePlugin _ others).persist

theorem migratePlugins_eq_self {plugins : List String}
    (h : ∀ plugin ∈ plugins, nodes.any (Node.loadsPlugin (quotedPackage plugin))) :
    migratePlugins plugins nodes = nodes := by
  refine foldl_eq_self fun plugin hmem => if_pos ?_
  rw [quotedPlugin_quoteOf]
  exact h plugin hmem

/-! ### Animations and keyframes -/

theorem insertAll_of_isDeclared
    (h : ∀ declaration ∈ declarations, isDeclared declaration.1 nodes) :
    insertAll declarations nodes = nodes :=
  foldl_eq_self fun declaration hmem => if_pos (h declaration hmem)

theorem isDeclaredIn_migrateAnimations (animation : Entries String) (nodes : List Node) :
    IsDeclaredIn inlineTheme (animationDeclarations animation)
      (migrateAnimations animation nodes) := by
  unfold migrateAnimations
  split_ifs with hempty
  · exact .inl (by simpa [animationDeclarations] using hempty)
  · obtain ⟨inner, hinner⟩ := exists_containerAt?_enter inlineTheme true
      (insertAll (animationDeclarations animation)) nodes
    exact .inr ⟨_, hinner, fun declaration hmem =>
      (settled_insertAll (animationDeclarations animation) inner).isDeclared hmem⟩

theorem migrateAnimations_eq_self {animation : Entries String}
    (h : IsDeclaredIn inlineTheme (animationDeclarations animation) nodes) :
    migrateAnimations animation nodes = nodes := by
  unfold migrateAnimations
  split_ifs with hempty
  · rfl
  · obtain ⟨inner, hinner, hdeclared⟩ :=
      h.resolve_left (by simpa [animationDeclarations] using hempty)
    exact enter_eq_self hinner (insertAll_of_isDeclared hdeclared) true

theorem any_isAt_addKeyframes (keyframes : Entries (Entries (Entries String)))
    (theme : List Node) : ∀ entry ∈ keyframes,
      (addKeyframes keyframes theme).any (Place.atRule "keyframes" entry.1).isAt := by
  have hstep (entry : String × Entries (Entries String)) (theme : List Node) :
      NodesPersist anyWrites [] theme (addKeyframes [entry] theme) :=
    nodesPersist_addKeyframes [entry] theme
  refine foldl_leaves (P := fun (entry : String × Entries (Entries String)) theme =>
      theme.any (Place.atRule "keyframes" entry.1).isAt)
    (fun entry theme => ?_) (fun entry other theme hthere => ?_) theme
  · dsimp only
    split_ifs with hthere
    · exact hthere
    · exact Merge.any_isAt_push (by simp [keyframesNode, Place.isAt, Node.atRule?]) true theme
  · exact any_isAt_of_persist hthere (hstep other theme)

theorem addKeyframes_eq_self {keyframes : Entries (Entries (Entries String))} {theme : List Node}
    (h : ∀ entry ∈ keyframes, theme.any (Place.atRule "keyframes" entry.1).isAt) :
    addKeyframes keyframes theme = theme :=
  foldl_eq_self fun entry hmem => if_pos (h entry hmem)

/-! ### The older configuration -/

/-- **Carrying over an older configuration carries it over.** -/
theorem isCarriedOver_migrate (legacy : Legacy) (nodes : List Node) :
    IsCarriedOver legacy (migrate legacy nodes) where
  plugins plugin hmem :=
    any_loadsPlugin_of_persist
      (any_loadsPlugin_migratePlugins legacy.plugins nodes plugin hmem)
      ((nodesPersist_migrateAnimations _ _).andThen (nodesPersist_migrateKeyframes _ _))
  animations := (isDeclaredIn_migrateAnimations legacy.animation _).of_persist
    (nodesPersist_migrateKeyframes _ _)
  keyframes := by
    unfold migrate migrateKeyframes
    split_ifs with hempty
    · exact .inl (by simpa using hempty)
    · obtain ⟨theme, htheme⟩ := exists_containerAt?_enter inlineTheme true
        (addKeyframes legacy.keyframes)
        (migrateAnimations legacy.animation (migratePlugins legacy.plugins nodes))
      exact .inr ⟨_, htheme, any_isAt_addKeyframes legacy.keyframes theme⟩

theorem IsCarriedOver.migrate_eq_self (h : IsCarriedOver legacy nodes) :
    migrate legacy nodes = nodes := by
  rw [migrate, migratePlugins_eq_self h.plugins, migrateAnimations_eq_self h.animations]
  unfold migrateKeyframes
  split_ifs with hempty
  · rfl
  · obtain ⟨theme, htheme, hthere⟩ := h.keyframes.resolve_left (by simpa using hempty)
    exact enter_eq_self htheme (addKeyframes_eq_self hthere) true

/-! ### A second installation -/

/-- Where values may be replaced, they are settled all the more where they may not. -/
theorem Settled.relax (h : Settled true declarations nodes) (overwrite : Bool) :
    Settled overwrite declarations nodes := by
  intro property value hlast
  obtain ⟨old, hold, hvalue⟩ := h property value hlast
  exact ⟨old, hold, fun _ => hvalue rfl⟩

theorem SettledIn.relax (h : SettledIn true selector declarations nodes) (overwrite : Bool) :
    SettledIn overwrite selector declarations nodes :=
  h.imp_right fun ⟨inner, hinner, hsettled⟩ => ⟨inner, hinner, hsettled.relax overwrite⟩

theorem HasRules.relax (h : HasRules version true selectors vars nodes) (overwrite : Bool) :
    HasRules version overwrite selectors vars nodes :=
  ⟨h.light.relax overwrite, h.dark.relax overwrite⟩

theorem HasModes.relax (h : HasModes version true selectors vars nodes) (overwrite : Bool) :
    HasModes version overwrite selectors vars nodes := by
  cases version with
  | v3 =>
    exact Or.imp_right
      (fun ⟨layer, hlayer, hrules⟩ => ⟨layer, hlayer, hrules.relax overwrite⟩) h
  | v4 => exact HasRules.relax h overwrite

theorem HasTheme.relax (h : HasTheme true vars nodes) (overwrite : Bool) :
    HasTheme overwrite vars nodes :=
  Or.imp_right (fun ⟨theme, htheme, hentries, hmirrors⟩ =>
    ⟨theme, htheme, hentries.relax overwrite, hmirrors⟩) h

/-- **Nothing is left to install**: the variables are installed, and what there is to carry over
is carried over. -/
structure IsComplete (vars : Variables) (settings : Settings) (options : Options)
    (nodes : List Node) : Prop where
  installed : IsInstalled vars settings options nodes
  carriedOver : settings.version = .v4 → ∀ legacy ∈ options.legacy, IsCarriedOver legacy nodes

theorem IsComplete.relax (h : IsComplete vars settings { options with overwrite := true } nodes)
    (overwrite : Bool) :
    IsComplete vars settings { options with overwrite := overwrite } nodes where
  installed :=
    ⟨h.installed.modes.relax overwrite,
      fun hversion => (h.installed.theme hversion).relax overwrite,
      h.installed.variant, h.installed.base⟩
  carriedOver := h.carriedOver

theorem HasBase.ensureBaseOf_eq_self (h : settings.cssVariables → HasBase settings.version nodes) :
    ensureBaseOf settings nodes = nodes := by
  unfold ensureBaseOf
  split_ifs with hvariables
  · exact (h hvariables).ensureBase_eq_self
  · rfl

/-- The base layer is put behind everything else. -/
theorem IsComplete.ensureBaseOf
    (h : IsComplete vars { settings with cssVariables := false } options nodes) :
    IsComplete vars settings options (ensureBaseOf settings nodes) where
  installed := h.installed.ensureBase
  carriedOver hversion legacy hlegacy := (h.carriedOver hversion legacy hlegacy).of_persist
    (nodesPersist_ensureBaseOf settings nodes)

/-- **After an installation nothing is left to install.** -/
theorem isComplete_install (vars : Variables) (settings : Settings) (options : Options)
    (nodes : List Node) :
    IsComplete vars settings options
      (install vars settings { options with cleanup := false } nodes) := by
  have hne := Selectors.light_ne_dark options.registry
  rw [install_steps]
  refine IsComplete.ensureBaseOf ?_
  cases hversion : settings.version with
  | v3 =>
    refine ⟨⟨?_, by simp, by simp, by simp⟩, by simp⟩
    show HasModes .v3 _ _ _ (installModes .v3 _ _ _ nodes)
    exact hasModes_installModes hne nodes
  | v4 =>
    dsimp only
    have hmodes : HasModes .v4 options.overwrite (.ofRegistry options.registry) vars
        (installModes .v4 options.overwrite (.ofRegistry options.registry) vars
          (ensureDarkVariant nodes)) :=
      hasModes_installModes hne (ensureDarkVariant nodes)
    have hvariant : HasVariant (installModes .v4 options.overwrite (.ofRegistry options.registry)
        vars (ensureDarkVariant nodes)) :=
      (hasVariant_ensureDarkVariant nodes).installModes
    generalize installModes .v4 options.overwrite (.ofRegistry options.registry) vars
      (ensureDarkVariant nodes) = written at hmodes hvariant
    have hcarry : NodesPersist noWrites [] (updateTheme options.overwrite vars written)
        (carryOver options.legacy (updateTheme options.overwrite vars written)) :=
      nodesPersist_carryOver options.legacy _
    refine ⟨⟨?_, fun _ => (hasTheme_updateTheme _ _ _).of_persist hcarry,
      fun _ => hvariant.updateTheme.of_persist hcarry, by simp⟩, fun _ legacy hlegacy => ?_⟩
    · show HasModes .v4 _ _ _ _
      -- The theme is written behind the modes, at a place of its own.
      refine (hmodes.congr (fun _ selector => ?_) (by simp)).of_persist hcarry
      exact find?_updateTheme (by simp [inlineTheme])
    · rw [Option.mem_def.mp hlegacy]
      exact isCarriedOver_migrate legacy _

/-- **Then a second installation changes nothing.** -/
theorem IsComplete.install_eq_self (h : IsComplete vars settings options nodes) :
    install vars settings { options with cleanup := false } nodes = nodes := by
  have hmodes := h.installed.modes
  rw [install_steps]
  cases hversion : settings.version with
  | v3 =>
    rw [hversion] at hmodes
    dsimp only
    rw [hmodes.installModes_eq_self, HasBase.ensureBaseOf_eq_self h.installed.base]
  | v4 =>
    rw [hversion] at hmodes
    have hcarried : carryOver options.legacy nodes = nodes := by
      cases hlegacy : options.legacy with
      | none => rfl
      | some legacy => exact (h.carriedOver hversion legacy hlegacy).migrate_eq_self
    dsimp only
    rw [(h.installed.variant hversion).ensureDarkVariant_eq_self, hmodes.installModes_eq_self,
      (h.installed.theme hversion).updateTheme_eq_self, hcarried,
      HasBase.ensureBaseOf_eq_self h.installed.base]

/-- **Installing variables twice** is the same as installing them once, where the one time may
replace values if one of the two may. -/
theorem install_install (vars : Variables) (settings : Settings) (options : Options)
    (first second : Bool) (nodes : List Node) :
    install vars settings { options with overwrite := second, cleanup := false }
        (install vars settings { options with overwrite := first, cleanup := false } nodes) =
      install vars settings { options with overwrite := first || second, cleanup := false }
        nodes := by
  have hcomplete (overwrite : Bool) :=
    isComplete_install vars settings { options with overwrite := overwrite } nodes
  cases first with
  | true => exact ((hcomplete true).relax second).install_eq_self
  | false =>
    have hkeeping := (hcomplete false).install_eq_self
    cases second with
    | false => exact hkeeping
    | true =>
      let keeping := install vars settings { options with overwrite := false, cleanup := false }
      calc install vars settings { options with overwrite := true, cleanup := false } (keeping nodes)
          = replaceValues vars settings options (keeping (keeping nodes)) :=
            install_overwrite vars settings options _
        _ = replaceValues vars settings options (keeping nodes) :=
            congrArg (replaceValues vars settings options) hkeeping
        _ = install vars settings { options with overwrite := true, cleanup := false } nodes :=
            (install_overwrite vars settings options nodes).symm

end Restyle.Theme
