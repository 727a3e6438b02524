import Restyle.Proofs.Color.Triple
import Restyle.Proofs.Theme.Contents

/-!
# Every variable is delivered

Whatever the style sheet, each variable that is asked for is declared after the installation
where a version keeps it, following places by first match. Of which custom property, and with
which value, is said here in terms of its own (`Restyle.Theme.IsPropertyOf`,
`Restyle.Theme.IsValueOf`), by what a name is with and without its `--` and by the grammar of
bare triples; `Restyle.Theme.isPropertyOf_iff` and `Restyle.Theme.isValueOf_iff` tie them to
what the program computes.

Several names may become the same property (`Restyle.Theme.AreDelivered`). Where values are
replaced, the last one counts; else the one that was there in front of the installation, or the
first one. Version 3 writes the variables before the scaffold is removed and version 4 afterwards
(`Restyle.Theme.writtenInto`), so what was there is not the same in both. Nothing that is done
after the writes takes a variable away or gives it another value.

A project that uses CSS variables has a complete base layer afterwards. It is the only one that
is added for this, and none is where there is one already (`Restyle.Theme.AddsBase`).
-/

namespace Restyle.Theme

open Restyle.Css (Node NodesPersist Place containerAt? contentsOf find? noWrites valueAt?)
open Restyle.Project (Settings Version)

variable {overwrite : Bool} {selector name bare property given value : String}
  {nodes old new : List Node} {vars : Variables} {settings : Settings} {options : Options}
  {version : Version} {entries : Entries String} {isColor : String → Bool}

/-! ### Names -/

/-- **A name without its leading `--`**, if it has one. -/
def IsBareName (name bare : String) : Prop :=
  name = "--" ++ bare ∨ name = bare ∧ ¬"--".toList <+: name.toList

theorem isBareName_iff : IsBareName name bare ↔ bareName name = bare := by
  unfold IsBareName bareName
  cases hstrip : Text.stripString? "--" name with
  | some rest =>
    obtain rfl := Text.stripString?_eq_some_iff.mp hstrip
    have hstart : "--".toList <+: ("--" ++ rest).toList := by simp
    simp only [hstart, not_true, and_false, or_false, Option.getD_some]
    rw [← String.toList_inj, ← String.toList_inj, String.toList_append, String.toList_append,
      List.append_cancel_left_eq]
  | none =>
    have hnot (rest : String) : name ≠ "--" ++ rest := by
      intro h
      rw [Text.stripString?_eq_some_iff.mpr h] at hstrip
      cases hstrip
    have hstart : ¬"--".toList <+: name.toList := by
      rw [← Text.stringStartsWith_iff, Text.stringStartsWith_iff_exists]
      exact fun ⟨rest, h⟩ => hnot rest h
    simp only [hnot, hstart, not_false_eq_true, and_true, false_or, Option.getD_none]

/-- **The custom property of a variable**: `--` once in front of its name. Version 4 has a
shorter one for the background of the sidebar. -/
def IsPropertyOf (version : Version) (name property : String) : Prop :=
  ∃ bare, IsBareName name bare ∧ property =
    if version = .v4 ∧ bare = "sidebar-background" then "--sidebar" else "--" ++ bare

theorem isPropertyOf_iff :
    IsPropertyOf version name property ↔ propertyFor version name = property := by
  simp only [IsPropertyOf, isBareName_iff, exists_eq_left']
  cases version <;> simp [propertyFor, customProperty, eq_comm]

/-! ### Values -/

/-- **The value of a variable**: version 4 puts `hsl()` around the bare components of a colour. -/
structure IsValueOf (version : Version) (given value : String) : Prop where
  wrapped : version = .v4 → Color.IsTriple given → value = "hsl(" ++ given ++ ")"
  plain : version = .v3 ∨ ¬Color.IsTriple given → value = given

theorem isValueOf_iff : IsValueOf version given value ↔ valueFor version given = value := by
  cases version with
  | v3 => exact ⟨fun h => (h.plain (.inl rfl)).symm, fun h => ⟨nofun, fun _ => h.symm⟩⟩
  | v4 =>
    by_cases htriple : Color.IsTriple given
    · rw [valueFor, Color.wrapTriple_of_isTriple htriple]
      exact ⟨fun h => (h.wrapped rfl htriple).symm,
        fun h => ⟨fun _ _ => h.symm, fun hnot => by simp [htriple] at hnot⟩⟩
    · rw [valueFor, Color.wrapTriple_of_not_isTriple htriple]
      exact ⟨fun h => (h.plain (.inr htriple)).symm,
        fun h => ⟨fun _ hnot => absurd hnot htriple, fun _ => h.symm⟩⟩

/-- **The first entry for a property** has this value. -/
def IsFirstValue (version : Version) (property value : String) (entries : Entries String) : Prop :=
  ∃ front name given back, entries = front ++ (name, given) :: back ∧
    IsPropertyOf version name property ∧ IsValueOf version given value ∧
      ∀ other ∈ front, ¬IsPropertyOf version other.1 property

/-- **The last entry for a property** has this value. -/
def IsLastValue (version : Version) (property value : String) (entries : Entries String) : Prop :=
  ∃ front name given back, entries = front ++ (name, given) :: back ∧
    IsPropertyOf version name property ∧ IsValueOf version given value ∧
      ∀ other ∈ back, ¬IsPropertyOf version other.1 property

theorem isFirstValue_of_lookup
    (h : (declarationsFor version entries).lookup property = some value) :
    IsFirstValue version property value entries := by
  obtain ⟨front, back, hmap, hfront⟩ := List.lookup_eq_some_iff.mp h
  obtain ⟨before, behind, rfl, rfl, hbehind⟩ := List.map_eq_append_iff.mp hmap
  obtain ⟨⟨name, given⟩, after, rfl, hentry, -⟩ := List.map_eq_cons_iff.mp hbehind
  obtain ⟨hproperty, hvalue⟩ := Prod.mk.inj hentry
  refine ⟨before, name, given, after, rfl, isPropertyOf_iff.mpr hproperty,
    isValueOf_iff.mpr hvalue, fun other hother hsame => ?_⟩
  have hne := hfront _ (List.mem_map_of_mem hother)
  exact absurd (isPropertyOf_iff.mp hsame).symm (by simpa using hne)

theorem isLastValue_of_lastValue?
    (h : lastValue? property (declarationsFor version entries) = some value) :
    IsLastValue version property value entries := by
  obtain ⟨front, back, hmap, hback⟩ := exists_of_lastValue? h
  obtain ⟨before, behind, rfl, rfl, hbehind⟩ := List.map_eq_append_iff.mp hmap
  obtain ⟨⟨name, given⟩, after, rfl, hentry, rfl⟩ := List.map_eq_cons_iff.mp hbehind
  obtain ⟨hproperty, hvalue⟩ := Prod.mk.inj hentry
  refine ⟨before, name, given, after, rfl, isPropertyOf_iff.mpr hproperty,
    isValueOf_iff.mpr hvalue, fun other hother hsame => ?_⟩
  exact hback _ (List.mem_map_of_mem hother) (isPropertyOf_iff.mp hsame)

/-! ### The variables of a mode -/

/-- **The variables of a mode are delivered**: each has its property declared where the version
keeps it, with the value of the last entry for this property if values are replaced, else with
the value that it had before, or that of the first entry if it had none. -/
def AreDelivered (version : Version) (overwrite : Bool) (selector : String)
    (entries : Entries String) (before after : List Node) : Prop :=
  ∀ entry ∈ entries, ∃ property value, IsPropertyOf version entry.1 property ∧
    valueAt? (modePath version selector) property after = some value ∧
    if overwrite then IsLastValue version property value entries
    else valueAt? (modePath version selector) property before = some value ∨
      valueAt? (modePath version selector) property before = none ∧
        IsFirstValue version property value entries

/-- They are so where all of them were assigned. -/
theorem areDelivered_of_written (h : ∀ declaration ∈ declarationsFor version entries, ∀ value,
      writtenValue? overwrite declaration.1 (declarationsFor version entries)
        (valueAt? (modePath version selector) declaration.1 old) = some value →
      valueAt? (modePath version selector) declaration.1 new = some value) :
    AreDelivered version overwrite selector entries old new := by
  intro entry hentry
  have hmem : (propertyFor version entry.1, valueFor version entry.2) ∈
      declarationsFor version entries := List.mem_map_of_mem hentry
  obtain ⟨value, hvalue⟩ := Option.isSome_iff_exists.mp (isSome_writtenValue? hmem overwrite
    (valueAt? (modePath version selector) (propertyFor version entry.1) old))
  refine ⟨propertyFor version entry.1, value, isPropertyOf_iff.mpr rfl, h _ hmem value hvalue, ?_⟩
  obtain ⟨last, hlast⟩ := Option.isSome_iff_exists.mp (isSome_lastValue? hmem)
  unfold writtenValue? at hvalue
  split_ifs at hvalue ⊢
  · rw [hlast, Option.some_or, ← hlast] at hvalue
    exact isLastValue_of_lastValue? hvalue
  · rcases Option.or_eq_some_iff.mp hvalue with hold | ⟨hnone, hfirst⟩
    · exact .inl hold
    · exact .inr ⟨hnone, isFirstValue_of_lookup hfirst⟩

/-- What the variables are written into: version 4 removes the scaffold first. -/
def writtenInto (version : Version) (options : Options) (nodes : List Node) : List Node :=
  match version with
  | .v3 => nodes
  | .v4 => cleanUp options nodes

/-! ### Version 4 -/

/-- The value of a property in a rule that variables were assigned in. -/
theorem valueAt?_of_contentsOf {property : String} {declarations : List (String × String)}
    (h : contentsOf (.rule selector) new =
      assignAll overwrite declarations (contentsOf (.rule selector) old)) :
    valueAt? [.rule selector] property new =
      writtenValue? overwrite property declarations (valueAt? [.rule selector] property old) := by
  rw [Css.valueAt?_singleton, Css.valueAt?_singleton, h, valueOf?_assignAll]

/-- **Version 4 delivers the variables of both modes**, whatever counts as a colour. -/
theorem areDelivered_installBy (isColor : String → Bool) (vars : Variables) (settings : Settings)
    (options : Options) (nodes : List Node) :
    AreDelivered .v4 options.overwrite (Selectors.ofRegistry options.registry).light vars.light
        (cleanUp options nodes) (installBy isColor vars settings options nodes) ∧
      AreDelivered .v4 options.overwrite (Selectors.ofRegistry options.registry).dark vars.dark
        (cleanUp options nodes) (installBy isColor vars settings options nodes) := by
  constructor <;> refine areDelivered_of_written fun declaration _ value hvalue => ?_
  · rw [← hvalue]
    exact valueAt?_of_contentsOf (contentsOf_light_installBy isColor vars settings options nodes)
  · rw [← hvalue]
    exact valueAt?_of_contentsOf (contentsOf_dark_installBy isColor vars settings options nodes)

/-! ### Version 3 -/

theorem valueAt?_modePath_v3 (selector property : String) (nodes : List Node) :
    valueAt? (modePath .v3 selector) property nodes =
      valueAt? [.rule selector] property (contentsOf baseLayer nodes) :=
  Css.valueAt?_cons baseLayer [.rule selector] property nodes

/-- The base layer that version 3 writes the variables in. -/
theorem contentsOf_base_v3 (options : Options) (vars : Variables) (nodes : List Node) :
    contentsOf baseLayer (cleanUp options
        (installModes .v3 options.overwrite (.ofRegistry options.registry) vars nodes)) =
      writeModes .v3 options.overwrite false (.ofRegistry options.registry) vars
        (contentsOf baseLayer nodes) := by
  rw [baseLayer, contentsOf_cleanUp (by decide), ← baseLayer, contentsOf_installModes_v3]

/-- **Version 3 delivers the variables of both modes**: the scaffold is not in the base layer,
and a base layer that is added is behind the first one. -/
theorem areDelivered_install_v3 (h : settings.version = .v3) (vars : Variables)
    (options : Options) (nodes : List Node) :
    AreDelivered .v3 options.overwrite (Selectors.ofRegistry options.registry).light vars.light
        nodes (install vars settings options nodes) ∧
      AreDelivered .v3 options.overwrite (Selectors.ofRegistry options.registry).dark vars.dark
        nodes (install vars settings options nodes) := by
  have hne := Selectors.light_ne_dark options.registry
  rw [install_v3 h]
  constructor <;>
    refine areDelivered_of_written fun declaration _ value hvalue =>
      (nodesPersist_ensureBaseOf _ _).valueAt? ?_ <;>
    rw [valueAt?_modePath_v3, contentsOf_base_v3, ← hvalue, valueAt?_modePath_v3]
  · exact valueAt?_of_contentsOf (contentsOf_light_writeModes hne)
  · exact valueAt?_of_contentsOf (contentsOf_dark_writeModes hne)

/-! ### The base layer -/

/-- The first rule of a selector applies some utilities. -/
def Applies (selector utilities : String) (nodes : List Node) : Prop :=
  ∃ inner, containerAt? [.rule selector] nodes = some inner ∧
    ∃ node ∈ inner, (Place.atRule "apply" utilities).isAt node

/-- **A complete base layer**: its first rules for every element and for the body apply the
utilities that they have to. -/
structure IsBase (version : Version) (layer : Node) : Prop where
  isAt : (Place.atRule "layer" "base").isAt layer
  everything : Applies "*" (match version with
    | .v3 => "border-border"
    | .v4 => "border-border outline-ring/50") layer.children
  body : Applies "body" "bg-background text-foreground" layer.children

theorem applies_iff {rule : String × String} :
    applies nodes rule ↔ Applies rule.1 rule.2 nodes := by
  unfold applies Applies
  rw [containerAt?_singleton]
  cases find? (.rule rule.1) nodes <;> simp

theorem isBase_iff {layer : Node} : IsBase version layer ↔ isCompleteBase version layer := by
  rw [isCompleteBase, Bool.and_eq_true, List.all_eq_true]
  constructor
  · intro h
    refine ⟨h.isAt, fun rule hrule => applies_iff.mpr ?_⟩
    cases version <;> simp only [baseRules, List.mem_cons, List.not_mem_nil, or_false] at hrule <;>
      rcases hrule with rfl | rfl
    all_goals first | exact h.everything | exact h.body
  · rintro ⟨hat, hall⟩
    cases version <;>
      exact ⟨hat, applies_iff.mp (hall _ List.mem_cons_self),
        applies_iff.mp (hall _ (List.mem_cons_of_mem _ List.mem_cons_self))⟩

theorem hasBase_iff : HasBase version nodes ↔ ∃ layer ∈ nodes, IsBase version layer := by
  simp only [HasBase, List.any_eq_true, isBase_iff]

/-- What is applied is so where the rule persists. -/
theorem Applies.of_persist {writes : Css.Writes} {utilities : String}
    (h : Applies selector utilities old) (hpersist : NodesPersist writes [] old new) :
    Applies selector utilities new := by
  obtain ⟨inner, hinner, node, hnode, hat⟩ := h
  obtain ⟨inner', hinner', hpersist'⟩ := hpersist.containerAt? hinner
  obtain ⟨kept, hkept, halike⟩ := hpersist'.exists_alike hnode
  exact ⟨inner', hinner', kept, hkept, (halike.isAt _).trans hat⟩

/-- A complete base layer is so where it persists. -/
theorem IsBase.of_persists {writes : Css.Writes} {seen : List Node} {layer kept : Node}
    (h : IsBase version layer) (hkept : layer.Persists writes seen kept) : IsBase version kept where
  isAt := (hkept.alike.isAt _).trans h.isAt
  everything := h.everything.of_persist (hkept.children h.isAt)
  body := h.body.of_persist (hkept.children h.isAt)

theorem HasBase.of_persist (writes : Css.Writes) (h : HasBase version old)
    (hpersist : NodesPersist writes [] old new) : HasBase version new := by
  rw [hasBase_iff] at h ⊢
  obtain ⟨layer, hlayer, hbase⟩ := h
  obtain ⟨kept, hkept, seen, hnode⟩ := hpersist.exists_persists hlayer
  exact ⟨kept, hkept, hbase.of_persists hnode⟩

/-- No base layer is part of the scaffold. -/
theorem HasBase.cleanUp (h : HasBase version nodes) (options : Options) :
    HasBase version (cleanUp options nodes) := by
  have hrule (selector : String) (node : Node) (h : isRuleOf selector node) :
      ¬isCompleteBase version node := by
    intro hbase
    have hat := (isBase_iff.mpr hbase).isAt
    cases node <;> simp_all [isRuleOf, Node.selector?, Place.isAt, Node.atRule?]
  have hscheme (node : Node) (h : isDarkScheme node) : ¬isCompleteBase version node := by
    intro hbase
    have hat : node.atRule? = some ("layer", "base") := by
      simpa [Place.isAt] using (isBase_iff.mpr hbase).isAt
    simp [isDarkScheme, hat] at h
  unfold Theme.cleanUp
  split_ifs
  · exact any_reviseFirst (fun node _ => hscheme node) (any_reviseFirst (fun node _ => hrule _ node)
      (any_reviseFirst (fun node _ => hrule _ node) h))
  · exact h

/-- **A complete base layer is so after the variables were installed.** -/
theorem HasBase.installVariables (h : HasBase settings.version nodes) :
    HasBase settings.version (installVariables vars settings options nodes) := by
  have hmodes {nodes : List Node} (h : HasBase settings.version nodes) : HasBase settings.version
      (installModes settings.version options.overwrite (.ofRegistry options.registry) vars nodes) :=
    h.of_persist _ (nodesPersist_installModes nodes)
  have htheme {nodes : List Node} (h : HasBase settings.version nodes) :
      HasBase settings.version (updateTheme options.overwrite vars nodes) :=
    h.of_persist Css.anyWrites (nodesPersist_updateTheme (fun _ _ _ => trivial) nodes)
  have hcarry {nodes : List Node} (h : HasBase settings.version nodes) :
      HasBase settings.version (carryOver options.legacy nodes) :=
    h.of_persist noWrites (nodesPersist_carryOver options.legacy nodes)
  have hvariant : HasBase settings.version (ensureDarkVariant nodes) :=
    h.of_persist noWrites (nodesPersist_ensureDarkVariant nodes)
  unfold Theme.installVariables
  cases hversion : settings.version with
  | v3 =>
    rw [hversion] at h hmodes
    exact (hmodes h).cleanUp options
  | v4 =>
    rw [hversion] at hmodes htheme hcarry hvariant
    exact hcarry (htheme (hmodes (hvariant.cleanUp options)))

/-- **A base layer is there** after the installation, at most one was added to the variables for
that, and none where one was complete, in front of the installation or behind the variables. -/
def AddsBase (version : Version) (before written after : List Node) : Prop :=
  (∃ layer ∈ after, IsBase version layer) ∧
    ∃ added, after = written ++ added ∧
      added.countP (Place.atRule "layer" "base").isAt ≤ 1 ∧
      ∀ layer, layer ∈ before ∨ layer ∈ written → IsBase version layer → added = []

theorem addsBase_ensureBase (hpersist : HasBase version old → HasBase version new) :
    AddsBase version old new (ensureBase version new) := by
  refine ⟨hasBase_iff.mp (hasBase_ensureBase version new), ?_⟩
  by_cases hbase : HasBase version new
  · exact ⟨[], by rw [hbase.ensureBase_eq_self, List.append_nil], by simp, fun _ _ _ => rfl⟩
  · have hnone (layer : Node) (hmem : layer ∈ old ∨ layer ∈ new) (hlayer : IsBase version layer) :
        False := by
      refine hbase ?_
      rcases hmem with hmem | hmem
      · exact hpersist (hasBase_iff.mpr ⟨layer, hmem, hlayer⟩)
      · exact hasBase_iff.mpr ⟨layer, hmem, hlayer⟩
    have hmarker : ¬(Place.atRule "layer" "base").isAt Css.breakMarker :=
      Place.not_isAt_of_none rfl rfl
    have hnew : (Place.atRule "layer" "base").isAt (newBase version) :=
      (isBase_iff.mpr (isCompleteBase_newBase _)).isAt
    have hpush : ensureBase version new = Css.push true (newBase version) new := if_neg hbase
    rw [hpush, Css.push]
    split_ifs
    · exact ⟨_, rfl, by simp [hmarker, hnew], fun layer hmem hlayer =>
        (hnone layer hmem hlayer).elim⟩
    · exact ⟨_, rfl, by simp [hnew], fun layer hmem hlayer => (hnone layer hmem hlayer).elim⟩

/-! ### The whole installation -/

/-- **Everything that is asked for is installed**: the variables of both modes are delivered, and
a project that uses CSS variables has its base layer. -/
theorem areDelivered_install (vars : Variables) (settings : Settings) (options : Options)
    (nodes : List Node) :
    AreDelivered settings.version options.overwrite (Selectors.ofRegistry options.registry).light
        vars.light (writtenInto settings.version options nodes)
        (install vars settings options nodes) ∧
      AreDelivered settings.version options.overwrite
        (Selectors.ofRegistry options.registry).dark vars.dark
        (writtenInto settings.version options nodes) (install vars settings options nodes) ∧
      (settings.cssVariables → AddsBase settings.version nodes
        (installVariables vars settings options nodes) (install vars settings options nodes)) := by
  rw [← and_assoc]
  constructor
  · cases hversion : settings.version with
    | v3 => exact areDelivered_install_v3 hversion vars options nodes
    | v4 =>
      rw [install_v4 hversion]
      exact areDelivered_installBy Color.isColorValue vars settings options nodes
  · intro hvariables
    rw [install, if_pos hvariables]
    exact addsBase_ensureBase HasBase.installVariables

end Restyle.Theme
