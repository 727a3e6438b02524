import Restyle.Proofs.Order.Distinct
import Restyle.Proofs.Text.Search
import Restyle.Proofs.Theme.Contents

/-!
# Names with and without their leading `--`

A variable may be named with or without the `--` of its custom property. Two sets of variables that
are the same once all names are spelled out (`Restyle.Theme.Variables.inFull`) ask for the same
properties with the same values, and the rules of the modes and the entries of the theme come out
the same.

The mirrors need not. They are made for each name as it is spelled, so a variable that the two modes
spell in two ways is two variables to them, and each is mirrored by its own value. What counts of
all mirrors are the **new** ones, of properties that are neither entries of the theme nor mirrored
before (`Restyle.Theme.newMirrors`). The installations agree exactly if these do, and these do if
the two values of such a variable are mirrored alike (`Restyle.Theme.install_respelled`).
-/

namespace Restyle.Theme

open Restyle.Css (Node contentsOf isDeclared)
open Restyle.Project (Settings Version)

variable {vars other : Variables} {entries : Entries String} {name property value : String}
  {declarations : List (String × String)} {nodes : List Node} {seen more : List String}
  {overwrite : Bool}

/-! ### Names spelled out -/

/-- Entries with the names of their custom properties. -/
def inFull (entries : Entries String) : Entries String :=
  entries.map fun (name, value) => (customProperty name, value)

/-- **Variables with all names spelled out.** -/
def Variables.inFull (vars : Variables) : Variables where
  theme := Theme.inFull vars.theme
  light := Theme.inFull vars.light
  dark := Theme.inFull vars.dark

/-- No two names of a mode, or of the theme, stand for the same variable. -/
structure Variables.IsDistinct (vars : Variables) : Prop where
  theme : vars.inFull.theme.names.Nodup
  light : vars.inFull.light.names.Nodup
  dark : vars.inFull.dark.names.Nodup

@[simp] theorem bareName_customProperty (name : String) :
    bareName (customProperty name) = bareName name := by
  have hstrip : Text.stripString? "--" (customProperty name) = some (bareName name) :=
    Text.stripString?_eq_some_iff.mpr rfl
  rw [bareName, hstrip, Option.getD_some]

@[simp] theorem customProperty_customProperty (name : String) :
    customProperty (customProperty name) = customProperty name := by
  rw [customProperty, bareName_customProperty, customProperty]

/-- A variable has the same property in either spelling. -/
theorem propertyFor_customProperty (version : Version) (name : String) :
    propertyFor version (customProperty name) = propertyFor version name := by
  cases version <;> simp [propertyFor]

theorem declarationsFor_inFull (version : Version) (entries : Entries String) :
    declarationsFor version (inFull entries) = declarationsFor version entries := by
  simp [declarationsFor, inFull, propertyFor_customProperty]

theorem themeDeclarations_inFull (entries : Entries String) :
    themeDeclarations (inFull entries) = themeDeclarations entries := by
  simp [themeDeclarations, inFull]

theorem isEmpty_inFull (entries : Entries String) :
    (inFull entries).isEmpty = entries.isEmpty := by
  cases entries <;> rfl

/-- **The rules of the modes do not depend on the spelling.** -/
theorem installModes_inFull (version : Version) (overwrite : Bool) (selectors : Selectors)
    (vars : Variables) (nodes : List Node) :
    installModes version overwrite selectors vars.inFull nodes =
      installModes version overwrite selectors vars nodes := by
  have hmodes (version : Version) (withBreak : Bool) :
      writeModes version overwrite withBreak selectors vars.inFull =
        writeModes version overwrite withBreak selectors vars := by
    funext nodes
    simp only [writeModes, Variables.inFull, declarationsFor_inFull]
  have hempty : (vars.inFull.light.isEmpty && vars.inFull.dark.isEmpty) =
      (vars.light.isEmpty && vars.dark.isEmpty) := by
    simp only [Variables.inFull, isEmpty_inFull]
  cases version
  · rw [installModes, installModes, hempty, hmodes]
  · rw [installModes, installModes, hmodes]

/-! ### New mirrors -/

/-- Declarations without those of a property that was seen before. -/
def unseen (seen : List String) : List (String × String) → List (String × String)
  | [] => []
  | declaration :: rest =>
    if declaration.1 ∈ seen then unseen seen rest
    else declaration :: unseen (declaration.1 :: seen) rest

/-- **The mirrors that are new**: those of properties that are neither entries of the theme nor
mirrored before. -/
def newMirrors (vars : Variables) : List (String × String) :=
  unseen ((themeDeclarations vars.theme).map Prod.fst) (mirrors vars)

theorem unseen_congr (h : ∀ property, property ∈ seen ↔ property ∈ more)
    (declarations : List (String × String)) :
    unseen seen declarations = unseen more declarations := by
  induction declarations generalizing seen more with
  | nil => rfl
  | cons declaration rest ih =>
    have hmore (property : String) :
        property ∈ declaration.1 :: seen ↔ property ∈ declaration.1 :: more := by
      rw [List.mem_cons, List.mem_cons, h]
    rw [unseen, unseen, ih h, ih hmore, if_congr (h _) rfl rfl]

/-- What was seen in front is not new behind. -/
theorem unseen_append (seen : List String) (front back : List (String × String)) :
    unseen seen (front ++ back) =
      unseen seen front ++ unseen (seen ++ front.map Prod.fst) back := by
  induction front generalizing seen with
  | nil => simp [unseen]
  | cons declaration rest ih =>
    rw [List.cons_append, unseen, unseen]
    split_ifs with hseen
    · rw [ih]
      congr 1
      exact unseen_congr (fun property => by
        simp only [List.mem_append, List.map_cons, List.mem_cons]
        constructor
        · rintro (h | h)
          · exact .inl h
          · exact .inr (.inr h)
        · rintro (h | rfl | h)
          · exact .inl h
          · exact .inl hseen
          · exact .inr h) back
    · rw [ih, List.cons_append]
      congr 2
      exact unseen_congr (fun property => by simp [or_left_comm]) back

theorem unseen_eq_nil (h : ∀ declaration ∈ declarations, declaration.1 ∈ seen) :
    unseen seen declarations = [] := by
  induction declarations with
  | nil => rfl
  | cons declaration rest ih =>
    obtain ⟨hfirst, hrest⟩ := List.forall_mem_cons.mp h
    rw [unseen, if_pos hfirst, ih hrest]

/-- Of what is new, each property is there once, and none that was seen before. -/
theorem nodup_unseen (seen : List String) (declarations : List (String × String)) :
    ((unseen seen declarations).map Prod.fst).Nodup ∧
      ∀ declaration ∈ unseen seen declarations,
        declaration.1 ∉ seen ∧ declaration ∈ declarations := by
  induction declarations generalizing seen with
  | nil => simp [unseen]
  | cons declaration rest ih =>
    rw [unseen]
    split_ifs with hseen
    · obtain ⟨hnodup, hnew⟩ := ih seen
      refine ⟨hnodup, fun other hmem => ?_⟩
      exact ⟨(hnew other hmem).1, List.mem_cons_of_mem _ (hnew other hmem).2⟩
    · obtain ⟨hnodup, hnew⟩ := ih (declaration.1 :: seen)
      constructor
      · refine List.nodup_cons.mpr ⟨fun hmem => ?_, hnodup⟩
        obtain ⟨other, hother, heq⟩ := List.mem_map.mp hmem
        exact (hnew other hother).1 (heq ▸ List.mem_cons_self)
      · rintro other (_ | ⟨_, hmem⟩)
        · exact ⟨hseen, List.mem_cons_self⟩
        · obtain ⟨hnot, hin⟩ := hnew other hmem
          exact ⟨fun h => hnot (List.mem_cons_of_mem _ h), List.mem_cons_of_mem _ hin⟩

/-- Elements whose declarations are seen before do not matter. -/
theorem unseen_flatMap_filter {α : Type} {g : α → List (String × String)} {keep : α → Bool}
    {xs : List α} (h : ∀ x ∈ xs, ¬keep x → ∀ declaration ∈ g x, declaration.1 ∈ seen) :
    unseen seen ((xs.filter keep).flatMap g) = unseen seen (xs.flatMap g) := by
  induction xs generalizing seen with
  | nil => rfl
  | cons x xs ih =>
    obtain ⟨hx, hxs⟩ := List.forall_mem_cons.mp h
    rw [List.filter_cons, List.flatMap_cons, unseen_append]
    split_ifs with hkeep
    · rw [List.flatMap_cons, unseen_append, ih fun y hy hnot declaration hmem =>
        List.mem_append_left _ (hxs y hy hnot declaration hmem)]
    · have hsame (property : String) :
          property ∈ seen ++ (g x).map Prod.fst ↔ property ∈ seen := by
        rw [List.mem_append, or_iff_left_of_imp]
        intro hmem
        obtain ⟨declaration, hdeclaration, rfl⟩ := List.mem_map.mp hmem
        exact hx hkeep declaration hdeclaration
      rw [unseen_eq_nil (hx hkeep), List.nil_append, unseen_congr hsame, ih hxs]

/-- **Only what is new is inserted**, where all that was seen is declared. -/
theorem insertAll_unseen (h : ∀ property ∈ seen, isDeclared property nodes)
    (declarations : List (String × String)) :
    insertAll (unseen seen declarations) nodes = insertAll declarations nodes := by
  induction declarations generalizing seen nodes with
  | nil => rfl
  | cons declaration rest ih =>
    have hcons : insertAll (declaration :: rest) nodes =
        insertAll rest (Css.insertProperty declaration.1 declaration.2 nodes) := rfl
    rw [unseen, hcons]
    split_ifs with hseen
    · rw [ih h, Css.insertProperty, if_pos (h _ hseen)]
    · refine ih (List.forall_mem_cons.mpr ⟨?_, fun property hmem => ?_⟩)
      · exact (settled_insertAll [declaration] nodes).isDeclared List.mem_cons_self
      · obtain ⟨old, hold⟩ := Option.isSome_iff_exists.mp
          ((Css.isSome_valueOf? property nodes).trans (h property hmem))
        rw [← Css.isSome_valueOf?, valueOf?_insertProperty hold]
        rfl

/-- **The theme depends on the names spelled out and on the new mirrors.** -/
theorem updateTheme_eq_newMirrors (overwrite : Bool) (vars : Variables) (nodes : List Node) :
    updateTheme overwrite vars nodes =
      if vars.inFull.isEmpty then nodes
      else Css.enter inlineTheme true (fun theme => insertAll (newMirrors vars)
        ((themeDeclarations vars.inFull.theme).foldl (fun theme declaration =>
          writeEntry overwrite declaration.1 declaration.2 theme) theme)) nodes := by
  have hempty : vars.inFull.isEmpty = vars.isEmpty := by
    simp only [Variables.isEmpty, Variables.inFull, isEmpty_inFull]
  rw [updateTheme, hempty]
  split_ifs
  · rfl
  · congr 1
    funext theme
    rw [Variables.inFull, themeDeclarations_inFull, ← foldl_writeThemeEntry, newMirrors,
      insertAll_unseen fun property hmem => ?_]
    obtain ⟨declaration, hdeclaration, rfl⟩ := List.mem_map.mp hmem
    exact (settled_writeThemeEntry overwrite vars.theme theme).isDeclared hdeclaration

/-- **So does the whole installation.** -/
theorem install_eq_of_newMirrors (hsame : vars.inFull = other.inFull)
    (hmirrors : newMirrors vars = newMirrors other) (settings : Settings) (options : Options)
    (nodes : List Node) :
    install vars settings options nodes = install other settings options nodes := by
  have hmodes (version : Version) (nodes : List Node) :
      installModes version options.overwrite (.ofRegistry options.registry) vars nodes =
        installModes version options.overwrite (.ofRegistry options.registry) other nodes := by
    rw [← installModes_inFull, hsame, installModes_inFull]
  have htheme (nodes : List Node) : updateTheme options.overwrite vars nodes =
      updateTheme options.overwrite other nodes := by
    rw [updateTheme_eq_newMirrors, hsame, hmirrors, ← updateTheme_eq_newMirrors]
  simp only [install, installVariables, hmodes, htheme]

theorem install_v3_eq (hsame : vars.inFull = other.inFull) {settings : Settings}
    (h : settings.version = .v3) (options : Options) (nodes : List Node) :
    install vars settings options nodes = install other settings options nodes := by
  rw [install_v3 h, install_v3 h, ← installModes_inFull, hsame, installModes_inFull]

/-! ### New mirrors in a new theme -/

/-- A new declaration. -/
def declarationOf (declaration : String × String) : Node :=
  .declaration declaration.1 declaration.2 {}

theorem declarationOf_injective : Function.Injective declarationOf := by
  rintro ⟨property, value⟩ ⟨property', value'⟩ h
  obtain ⟨rfl, rfl, -⟩ := Node.declaration.inj h
  rfl

/-- Behind custom properties alone, a property is inserted at the end. -/
theorem insertProperty_eq_append (hcustom : ∀ node ∈ nodes, node.isCustomProperty)
    (hnew : ¬isDeclared property nodes) (value : String) :
    Css.insertProperty property value nodes = nodes ++ [.declaration property value {}] := by
  rcases List.eq_nil_or_concat nodes with rfl | ⟨front, last, rfl⟩
  · rfl
  · rw [List.concat_eq_append] at hcustom hnew ⊢
    have hindex : Css.lastIndex? Node.isCustomProperty (front ++ [last]) = some front.length := by
      simp [Css.lastIndex?, List.findIdx?_cons, hcustom last (by simp)]
    rw [Css.insertProperty, if_neg hnew, hindex]
    dsimp only
    rw [List.take_of_length_le (by simp), List.drop_eq_nil_of_le (by simp)]

/-- **New custom properties are inserted one behind the other.** -/
theorem insertAll_eq_append (hcustom : ∀ node ∈ nodes, node.isCustomProperty)
    (hdeclarations : ∀ declaration ∈ declarations, (declarationOf declaration).isCustomProperty)
    (hnew : ∀ declaration ∈ declarations, ¬isDeclared declaration.1 nodes)
    (hdistinct : (declarations.map Prod.fst).Nodup) :
    insertAll declarations nodes = nodes ++ declarations.map declarationOf := by
  induction declarations generalizing nodes with
  | nil => simp [insertAll]
  | cons declaration rest ih =>
    obtain ⟨hfirst, hrest⟩ := List.forall_mem_cons.mp hdeclarations
    obtain ⟨hnewfirst, hnewrest⟩ := List.forall_mem_cons.mp hnew
    obtain ⟨hnot, hnodup⟩ := List.nodup_cons.mp hdistinct
    have hcons : insertAll (declaration :: rest) nodes =
        insertAll rest (nodes ++ [declarationOf declaration]) :=
      congrArg (insertAll rest) (insertProperty_eq_append hcustom hnewfirst declaration.2)
    rw [hcons, ih _ hrest _ hnodup, List.map_cons, List.append_assoc, List.singleton_append]
    · simpa [or_imp, forall_and] using ⟨hcustom, hfirst⟩
    · intro later hlater hdeclared
      have hne : declaration.1 ≠ later.1 := fun heq => hnot (heq ▸ List.mem_map_of_mem hlater)
      have hother : ¬(declarationOf declaration).declares later.1 := by
        simpa [declarationOf, Node.declares, Node.declaration?] using hne
      rw [isDeclared, List.any_append, List.any_cons, Bool.or_eq_true, List.any_nil, Bool.or_false]
        at hdeclared
      exact hdeclared.elim (hnewrest later hlater) hother

theorem isCustomProperty_declarationOf (rest value : String) :
    (declarationOf ("--" ++ rest, value)).isCustomProperty := by
  have hstrip : Text.strip? "--".toList ("--" ++ rest).toList = some rest.toList := by
    rw [Text.strip?_eq_some_iff, String.toList_append]
  exact Option.isSome_of_eq_some hstrip

theorem isCustomProperty_of_mem_themeDeclarations {declaration : String × String}
    (h : declaration ∈ themeDeclarations entries) :
    (declarationOf declaration).isCustomProperty := by
  obtain ⟨entry, -, rfl⟩ := List.mem_map.mp h
  exact isCustomProperty_declarationOf _ _

theorem isCustomProperty_of_mem_mirrors {mirror : String × String} (h : mirror ∈ mirrors vars) :
    (declarationOf mirror).isCustomProperty := by
  obtain ⟨name, -, hmirror⟩ := List.mem_flatMap.mp h
  cases hvalue : decidingValue? vars name with
  | none => simp [hvalue] at hmirror
  | some value =>
    rw [hvalue] at hmirror
    have hcolor (bare : String) : "--color-" ++ bare = "--" ++ ("color-" ++ bare) := by
      rw [← String.append_assoc]
      rfl
    dsimp only [mirrorsOf] at hmirror
    split_ifs at hmirror
    · have hscale : ∀ mirror ∈ radiusScale, (declarationOf mirror).isCustomProperty := by decide
      exact hscale mirror hmirror
    · rw [List.mem_singleton.mp hmirror]
      decide
    · rw [List.mem_singleton.mp hmirror, hcolor]
      exact isCustomProperty_declarationOf _ _
    · rw [List.mem_singleton.mp hmirror]
      exact isCustomProperty_declarationOf _ _

/-- Entries of properties that are not declared are inserted like anything else. -/
theorem foldl_writeEntry_eq_insertAll
    (hnew : ∀ declaration ∈ declarations, ¬isDeclared declaration.1 nodes)
    (hdistinct : (declarations.map Prod.fst).Nodup) :
    declarations.foldl (fun nodes declaration =>
        writeEntry overwrite declaration.1 declaration.2 nodes) nodes =
      insertAll declarations nodes := by
  induction declarations generalizing nodes with
  | nil => rfl
  | cons declaration rest ih =>
    obtain ⟨hfirst, hrest⟩ := List.forall_mem_cons.mp hnew
    obtain ⟨hnot, hnodup⟩ := List.nodup_cons.mp hdistinct
    rw [List.foldl_cons, writeEntry, if_neg hfirst, ih _ hnodup]
    · rfl
    · intro later hlater hdeclared
      have hne : declaration.1 ≠ later.1 := fun heq => hnot (heq ▸ List.mem_map_of_mem hlater)
      rw [← Css.isSome_valueOf?, isWrite_insertProperty.others _ _ hne, Css.isSome_valueOf?]
        at hdeclared
      exact hrest later hlater hdeclared

/-- **A theme that is new has the entries and then the new mirrors.** -/
theorem contentsOf_theme_install_nil (h : vars.IsDistinct) :
    contentsOf inlineTheme (install vars { version := .v4, cssVariables := false } {} []) =
      (themeDeclarations vars.theme).map declarationOf ++
        (newMirrors vars).map declarationOf := by
  have hentries : ∀ declaration ∈ themeDeclarations vars.theme,
      (declarationOf declaration).isCustomProperty :=
    fun _ => isCustomProperty_of_mem_themeDeclarations
  have hdistinct : ((themeDeclarations vars.theme).map Prod.fst).Nodup := h.theme
  have hnone : ∀ declaration ∈ themeDeclarations vars.theme, ¬isDeclared declaration.1 [] :=
    fun _ _ => Bool.false_ne_true
  have hwritten : vars.theme.foldl (writeThemeEntry true) [] =
      (themeDeclarations vars.theme).map declarationOf := by
    rw [foldl_writeThemeEntry, foldl_writeEntry_eq_insertAll hnone hdistinct]
    exact insertAll_eq_append (by simp) hentries hnone hdistinct
  have hdeclared (property : String) :
      isDeclared property ((themeDeclarations vars.theme).map declarationOf) ↔
        property ∈ (themeDeclarations vars.theme).map Prod.fst := by
    simp [isDeclared, declarationOf, Node.declares, Node.declaration?]
  have htheme :
      contentsOf inlineTheme (install vars { version := .v4, cssVariables := false } {} []) =
        insertAll (mirrors vars) (vars.theme.foldl (writeThemeEntry true) []) := by
    rw [install_v4 rfl, contentsOf_theme_installBy, mirrorsBy_isColorValue]
    rfl
  obtain ⟨hnodup, hnew⟩ := nodup_unseen ((themeDeclarations vars.theme).map Prod.fst) (mirrors vars)
  rw [htheme, hwritten, ← insertAll_unseen fun property hmem => (hdeclared property).mpr hmem]
  refine insertAll_eq_append ?_ (fun mirror hmem => ?_) (fun mirror hmem => ?_) hnodup
  · exact List.forall_mem_map.mpr hentries
  · exact isCustomProperty_of_mem_mirrors (hnew mirror hmem).2
  · exact fun h => (hnew mirror hmem).1 ((hdeclared _).mp h)

/-- **Installations agree exactly if the new mirrors do.** -/
theorem install_eq_iff_newMirrors (hsame : vars.inFull = other.inFull) (h : vars.IsDistinct)
    (hother : other.IsDistinct) :
    (∀ settings options nodes,
      install vars settings options nodes = install other settings options nodes) ↔
      newMirrors vars = newMirrors other := by
  constructor
  · intro hall
    have htheme := contentsOf_theme_install_nil h
    rw [hall, contentsOf_theme_install_nil hother, ← themeDeclarations_inFull vars.theme,
      ← themeDeclarations_inFull other.theme] at htheme
    have hentries : inFull vars.theme = inFull other.theme := congrArg Variables.theme hsame
    rw [hentries] at htheme
    exact ((List.map_injective_iff.mpr declarationOf_injective)
      (List.append_cancel_left htheme)).symm
  · exact fun hmirrors => install_eq_of_newMirrors hsame hmirrors

/-! ### Modes that agree -/

theorem find?_eq_none_iff : entries.find? name = none ↔ name ∉ entries.names := by
  induction entries with
  | nil => simp [Entries.find?, Entries.names]
  | cons entry rest ih =>
    by_cases h : entry.1 = name
    · simp [Entries.find?, Entries.names, h]
    · simp [Entries.find?, Entries.names, h, ih, Ne.symm h]

/-- Under a name that is there once is the value that it is there with. -/
theorem find?_eq_some_of_mem (hnodup : entries.names.Nodup) (h : (name, value) ∈ entries) :
    entries.find? name = some value := by
  induction entries with
  | nil => cases h
  | cons entry rest ih =>
    obtain ⟨hnot, hrest⟩ := List.nodup_cons.mp hnodup
    rcases List.mem_cons.mp h with rfl | h
    · exact if_pos rfl
    · have hne : entry.1 ≠ name := fun heq => hnot (heq ▸ List.mem_map_of_mem h)
      rw [Entries.find?, if_neg hne, ih hrest h]

theorem names_inFull (entries : Entries String) :
    (inFull entries).names = entries.names.map customProperty := by
  simp [inFull, Entries.names]

/-- The mirrors of one variable. -/
def mirrorsOfName (vars : Variables) (name : String) : List (String × String) :=
  match decidingValue? vars name with
  | some value => mirrorsOf (bareName name) value
  | none => []

theorem nonempty?_of_ne (h : value ≠ "") : nonempty? (some value) = some value := by
  simp [nonempty?, Option.filter, h]

/-- The names of light mode come first, and then the other ones of dark mode. -/
theorem mirrors_eq (hlight : vars.light.names.Nodup) (hdark : vars.dark.names.Nodup) :
    mirrors vars = vars.light.names.flatMap (mirrorsOfName vars) ++
      (vars.dark.names.filter (· ∉ vars.light.names)).flatMap (mirrorsOfName vars) := by
  have hnames : modeNames vars =
      vars.light.names ++ vars.dark.names.filter (· ∉ vars.light.names) := by
    rw [modeNames, firsts_append, firsts_eq_self hlight, firsts_eq_self hdark]
  rw [← List.flatMap_append, ← hnames]
  rfl

/-- **The modes agree on a variable that they spell in two ways** if dark mode has no value for it,
or light mode has one and both values are mirrored alike. -/
def Variables.AgreeInModes (vars : Variables) : Prop :=
  ∀ light ∈ vars.light, ∀ dark ∈ vars.dark, bareName light.1 = bareName dark.1 →
    light.1 = dark.1 ∨ dark.2 = "" ∨
      light.2 ≠ "" ∧ mirrorsOf (bareName light.1) dark.2 = mirrorsOf (bareName light.1) light.2

theorem customProperty_mem_inFull (h : name ∈ entries.names) :
    customProperty name ∈ (inFull entries).names :=
  names_inFull entries ▸ List.mem_map_of_mem h

/-- A name that is there in no spelling is not there as it is spelled. -/
theorem filter_not_mem_inFull (entries : Entries String) (names : List String) :
    names.filter (customProperty · ∉ (inFull entries).names) =
      (names.filter (· ∉ entries.names)).filter (customProperty · ∉ (inFull entries).names) := by
  rw [List.filter_filter]
  refine List.filter_congr fun name _ => ?_
  by_cases hmem : customProperty name ∈ (inFull entries).names
  · simp [hmem]
  · have hnot : name ∉ entries.names := fun h => hmem (customProperty_mem_inFull h)
    simp [hmem, hnot]

section Agreement

variable (hdistinct : vars.IsDistinct)
include hdistinct

theorem Variables.IsDistinct.nodup_light : vars.light.names.Nodup :=
  .of_map _ (names_inFull vars.light ▸ hdistinct.light)

theorem Variables.IsDistinct.nodup_dark : vars.dark.names.Nodup :=
  .of_map _ (names_inFull vars.dark ▸ hdistinct.dark)

omit hdistinct in
theorem find?_inFull (hnodup : (inFull entries).names.Nodup) (h : (name, value) ∈ entries) :
    (inFull entries).find? (customProperty name) = some value :=
  find?_eq_some_of_mem hnodup (List.mem_map.mpr ⟨(name, value), h, rfl⟩)

/-- A variable that light mode has without a value has one value in dark mode, in any spelling. -/
theorem nonempty?_dark_inFull (hagree : vars.AgreeInModes) (hlight : (name, "") ∈ vars.light) :
    nonempty? (vars.inFull.dark.find? (customProperty name)) =
      nonempty? (vars.dark.find? name) := by
  change nonempty? ((inFull vars.dark).find? (customProperty name)) = _
  by_cases hname : name ∈ vars.dark.names
  · obtain ⟨⟨name, value⟩, hmem, rfl⟩ := List.mem_map.mp hname
    rw [find?_inFull hdistinct.dark hmem, find?_eq_some_of_mem hdistinct.nodup_dark hmem]
  · rw [find?_eq_none_iff.mpr hname]
    by_cases hname' : customProperty name ∈ (inFull vars.dark).names
    · -- Dark mode has it in the other spelling, and there it can only be without a value.
      rw [names_inFull] at hname'
      obtain ⟨_, hspelled, heq⟩ := List.mem_map.mp hname'
      obtain ⟨⟨spelled, value⟩, hmem, rfl⟩ := List.mem_map.mp hspelled
      have hbare : bareName name = bareName spelled := by
        rw [← bareName_customProperty, ← heq, bareName_customProperty]
      rcases hagree _ hlight _ hmem hbare with rfl | rfl | ⟨hne, -⟩
      · exact absurd hspelled hname
      · rw [← heq, find?_inFull hdistinct.dark hmem]
        rfl
      · exact absurd rfl hne
    · rw [find?_eq_none_iff.mpr hname']

/-- A variable of light mode is mirrored in the same way with its name spelled out. -/
theorem mirrorsOfName_light (hagree : vars.AgreeInModes) (hname : name ∈ vars.light.names) :
    mirrorsOfName vars.inFull (customProperty name) = mirrorsOfName vars name := by
  obtain ⟨⟨name, value⟩, hmem, rfl⟩ := List.mem_map.mp hname
  have hlight : vars.inFull.light.find? (customProperty name) = some value :=
    find?_inFull hdistinct.light hmem
  dsimp only
  rw [mirrorsOfName, mirrorsOfName, bareName_customProperty, decidingValue?_eq, decidingValue?_eq,
    hlight, find?_eq_some_of_mem hdistinct.nodup_light hmem]
  by_cases hempty : value = ""
  · -- The value of dark mode only counts here, where light mode has none.
    subst hempty
    rw [nonempty?_dark_inFull hdistinct hagree hmem]
  · rw [nonempty?_of_ne hempty, Option.some_or, Option.some_or]

/-- So is a variable of dark mode that light mode has in no spelling. -/
theorem mirrorsOfName_dark (hname : name ∈ vars.dark.names)
    (hlight : customProperty name ∉ vars.inFull.light.names) :
    mirrorsOfName vars.inFull (customProperty name) = mirrorsOfName vars name := by
  obtain ⟨⟨name, value⟩, hmem, rfl⟩ := List.mem_map.mp hname
  have hnot : name ∉ vars.light.names := fun h => hlight (customProperty_mem_inFull h)
  have hdark : vars.inFull.dark.find? (customProperty name) = some value :=
    find?_inFull hdistinct.dark hmem
  dsimp only
  rw [mirrorsOfName, mirrorsOfName, bareName_customProperty, decidingValue?_eq, decidingValue?_eq,
    find?_eq_none_iff.mpr hlight, find?_eq_none_iff.mpr hnot, hdark,
    find?_eq_some_of_mem hdistinct.nodup_dark hmem]

/-- A variable of dark mode that light mode has in the other spelling is mirrored there already. -/
theorem mem_mirrors_light_of_agree (hagree : vars.AgreeInModes) (hname : name ∈ vars.dark.names)
    (hnot : name ∉ vars.light.names) (hlight : customProperty name ∈ vars.inFull.light.names)
    {mirror : String × String} (hmirror : mirror ∈ mirrorsOfName vars name) :
    mirror ∈ vars.light.names.flatMap (mirrorsOfName vars) := by
  obtain ⟨⟨name, value⟩, hmem, rfl⟩ := List.mem_map.mp hname
  have hnames : customProperty name ∈ vars.light.names.map customProperty :=
    names_inFull vars.light ▸ hlight
  obtain ⟨_, hspelled, heq⟩ := List.mem_map.mp hnames
  obtain ⟨⟨spelled, lightValue⟩, hmemlight, rfl⟩ := List.mem_map.mp hspelled
  have hbare : bareName spelled = bareName name := by
    rw [← bareName_customProperty, heq, bareName_customProperty]
  rw [mirrorsOfName, decidingValue?_eq, find?_eq_none_iff.mpr hnot,
    find?_eq_some_of_mem hdistinct.nodup_dark hmem] at hmirror
  rcases hagree _ hmemlight _ hmem hbare with rfl | rfl | ⟨hne, halike⟩
  · exact absurd hspelled hnot
  · cases hmirror
  · have hvalue : value ≠ "" := by
      rintro rfl
      cases hmirror
    have hmirrors : mirrorsOfName vars spelled = mirrorsOf (bareName name) value := by
      rw [mirrorsOfName, decidingValue?_eq, find?_eq_some_of_mem hdistinct.nodup_light hmemlight,
        nonempty?_of_ne hne, ← hbare]
      exact halike.symm
    refine List.mem_flatMap.mpr ⟨spelled, hspelled, ?_⟩
    rw [nonempty?_of_ne hvalue] at hmirror
    exact hmirrors ▸ hmirror

/-- **Where the modes agree, the new mirrors do not depend on the spelling.** -/
theorem newMirrors_inFull (hagree : vars.AgreeInModes) :
    newMirrors vars.inFull = newMirrors vars := by
  have hlight : vars.inFull.light.names.flatMap (mirrorsOfName vars.inFull) =
      vars.light.names.flatMap (mirrorsOfName vars) := by
    rw [show vars.inFull.light.names = _ from names_inFull vars.light, List.flatMap_map]
    exact List.flatMap_congr fun name hname => mirrorsOfName_light hdistinct hagree hname
  -- Of the names of dark mode, those stay that light mode has in no spelling.
  let inNeither := vars.dark.names.filter (customProperty · ∉ vars.inFull.light.names)
  have hdark : (vars.inFull.dark.names.filter (· ∉ vars.inFull.light.names)).flatMap
        (mirrorsOfName vars.inFull) = inNeither.flatMap (mirrorsOfName vars) := by
    rw [show vars.inFull.dark.names = _ from names_inFull vars.dark, List.filter_map,
      List.flatMap_map]
    refine List.flatMap_congr fun name hname => ?_
    obtain ⟨hmem, hnot⟩ := List.mem_filter.mp hname
    exact mirrorsOfName_dark hdistinct hmem (of_decide_eq_true hnot)
  have htheme : themeDeclarations vars.inFull.theme = themeDeclarations vars.theme :=
    themeDeclarations_inFull vars.theme
  have hneither : inNeither = (vars.dark.names.filter (· ∉ vars.light.names)).filter
      (customProperty · ∉ vars.inFull.light.names) :=
    filter_not_mem_inFull vars.light vars.dark.names
  rw [newMirrors, newMirrors, mirrors_eq hdistinct.nodup_light hdistinct.nodup_dark,
    mirrors_eq hdistinct.light hdistinct.dark, htheme, hlight, hdark, hneither, unseen_append,
    unseen_append, unseen_flatMap_filter]
  -- What light mode has in the other spelling is mirrored there already.
  intro name hname hkeep mirror hmirror
  obtain ⟨hmem, hnot⟩ := List.mem_filter.mp hname
  have hin : customProperty name ∈ vars.inFull.light.names := by simpa using hkeep
  exact List.mem_append_right _ (List.mem_map_of_mem
    (mem_mirrors_light_of_agree hdistinct hagree hmem (of_decide_eq_true hnot) hin hmirror))

end Agreement

/-- **A leading `--` makes no difference exactly where the new mirrors agree.** Installations of
variables that are the same with their names spelled out agree in version 3, and they agree in
version 4 if and only if both make the same new mirrors. They do wherever the two modes agree on the
variables that they spell in two ways. -/
theorem install_respelled {vars other : Variables} (hsame : vars.inFull = other.inFull)
    (hdistinct : vars.IsDistinct) :
    (∀ settings options nodes, settings.version = .v3 →
      install vars settings options nodes = install other settings options nodes) ∧
    ((∀ settings options nodes,
      install vars settings options nodes = install other settings options nodes) ↔
        newMirrors vars = newMirrors other) ∧
    (vars.AgreeInModes → other.AgreeInModes → newMirrors vars = newMirrors other) := by
  have hother : other.IsDistinct :=
    ⟨hsame ▸ hdistinct.theme, hsame ▸ hdistinct.light, hsame ▸ hdistinct.dark⟩
  refine ⟨fun settings options nodes h => install_v3_eq hsame h options nodes,
    install_eq_iff_newMirrors hsame hdistinct hother, fun hagree hagree' => ?_⟩
  rw [← newMirrors_inFull hdistinct hagree, hsame, newMirrors_inFull hother hagree']

/-- In light mode the colour is `brand` and in dark mode it is `--brand`, or the other way round. -/
theorem install_respelled_brand :
    let vars : Variables := { light := [("brand", "red")], dark := [("--brand", "blue")] }
    let other : Variables := { light := [("--brand", "red")], dark := [("brand", "blue")] }
    vars.inFull = other.inFull ∧ vars.IsDistinct ∧
      ∀ settings options nodes,
        install vars settings options nodes = install other settings options nodes := by
  intro vars other
  have hsame : vars.inFull = other.inFull := by decide +kernel
  have hdistinct : vars.IsDistinct :=
    ⟨by decide +kernel, by decide +kernel, by decide +kernel⟩
  have hagree : vars.AgreeInModes := by
    unfold Variables.AgreeInModes
    decide +kernel
  have hagree' : other.AgreeInModes := by
    unfold Variables.AgreeInModes
    decide +kernel
  obtain ⟨-, hiff, hmirrors⟩ := install_respelled hsame hdistinct
  exact ⟨hsame, hdistinct, hiff.mpr (hmirrors hagree hagree')⟩

/-- A colour of light mode that dark mode takes from another property has one mirror if both modes
call it `brand`, and two of them if dark mode calls it `--brand`. -/
theorem not_forall_install_respelled :
    ¬∀ vars other : Variables, vars.inFull = other.inFull → vars.IsDistinct →
      ∀ settings options nodes,
        install vars settings options nodes = install other settings options nodes := by
  intro h
  let vars : Variables := { light := [("brand", "red")], dark := [("--brand", "var(--x)")] }
  let other : Variables := { light := [("brand", "red")], dark := [("brand", "var(--x)")] }
  have heq := h vars other (by decide +kernel)
    ⟨by decide +kernel, by decide +kernel, by decide +kernel⟩
    { version := .v4, cssVariables := false } {} []
  have hmirrored := congrArg (fun nodes => isDeclared "--brand" (contentsOf inlineTheme nodes)) heq
  exact absurd hmirrored (by decide +kernel)

end Restyle.Theme
