import Restyle.Proofs.Order.Entries
import Restyle.Proofs.Theme.Delivery

/-!
# The theme mirrors the variables

In version 4 the inline theme offers each variable to utilities, by a mirror that refers to it.
Four kinds of declarations are written in the theme, and they may be of the same properties:
entries of the theme, mirrors, animations of an older configuration, and what was there. Still
nothing is lost and nothing is there twice (`Restyle.Theme.IsMirrored`). Each variable with a
value is mirrored, by the value that decides (`Restyle.Theme.Decides`), and each entry is declared.
What is new in the theme is one of the first three.
A mirror refers to a custom property (`Restyle.Theme.RefersTo`), and that is declared in the rule
of a mode: variables and mirrors take their names from the same properties, also where version 4
renames them. And no property that was declared once is declared a second time.

Whether a variable is a colour decides how its mirror is called, but not what it refers to, so all
of this holds whatever counts as a colour (`Restyle.Theme.isMirrored_installBy`).
-/

namespace Restyle.Theme

open Restyle.Css (Node Place contentsOf isDeclared valueAt? valueOf?)
open Restyle.Project (Settings Version)

variable {overwrite : Bool} {vars : Variables} {settings : Settings} {options : Options}
  {isColor : String → Bool} {nodes : List Node} {name bare value property : String}

/-! ### References -/

/-- The text of a reference to a property. -/
def referenceText (property : String) : List Char := ("var(" ++ property ++ ")").toList

/-- **A value refers to a property.** It refers to no other one by a name without round brackets,
if there are none in the name of the property. -/
structure RefersTo (value property : String) : Prop where
  mentions : referenceText property <:+: value.toList
  only : '(' ∉ property.toList → ')' ∉ property.toList → ∀ other : String, ')' ∉ other.toList →
    referenceText other <:+: value.toList → other = property

/-- What is in front of a bracket, and in front of the first one. -/
theorem append_cons_inj {c : Char} {xs ys xs' ys' : List Char} (hxs : c ∉ xs) (hxs' : c ∉ xs')
    (h : xs ++ c :: ys = xs' ++ c :: ys') : xs = xs' := by
  have hall {zs : List Char} (hzs : c ∉ zs) : zs.takeWhile (· != c) = zs :=
    List.takeWhile_eq_self_iff.mpr fun d hd => by
      simpa using ne_of_mem_of_not_mem hd hzs
  have htake := congrArg (List.takeWhile (· != c)) h
  rwa [Text.takeWhile_append_cons (by simp), Text.takeWhile_append_cons (by simp), hall hxs,
    hall hxs'] at htake

/-- A reference in a value without other brackets behind it, and without another one in front. -/
theorem refersTo_between (front back : String) {property value : String}
    (hvalue : value = front ++ ("var(" ++ property ++ ")") ++ back)
    (hfront : ¬"var(".toList <:+: front.toList ++ "var".toList) (hback : '(' ∉ back.toList) :
    RefersTo value property where
  mentions := ⟨front.toList, back.toList, by simp [hvalue, referenceText]⟩
  only := by
    rintro hopen hclose other hother ⟨xs, ys, heq⟩
    have hsame : (xs ++ "var".toList) ++ '(' :: (other.toList ++ ')' :: ys) =
        (front.toList ++ "var".toList) ++ '(' :: (property.toList ++ ')' :: back.toList) := by
      simpa [hvalue, referenceText] using heq
    have hnone : '(' ∉ property.toList ++ ')' :: back.toList := by simp [hopen, hback]
    -- The last bracket that opens is that of the reference, so both references are the same.
    have hbehind : other.toList ++ ')' :: ys = property.toList ++ ')' :: back.toList := by
      rcases List.append_eq_append_iff.mp hsame with ⟨cs, hcs, hrest⟩ | ⟨cs, hcs, hrest⟩
      · cases cs with
        | nil => exact (List.cons.inj hrest).2
        | cons c cs =>
          obtain ⟨rfl, -⟩ := List.cons.inj hrest
          exact absurd ⟨xs, cs, by rw [hcs]; simp⟩ hfront
      · cases cs with
        | nil => exact (List.cons.inj hrest).2.symm
        | cons c cs =>
          have htail : property.toList ++ ')' :: back.toList = cs ++ '(' :: _ :=
            (List.cons.inj hrest).2
          exact absurd (by simp [htail]) hnone
    exact String.toList_inj.mp (append_cons_inj hother hclose hbehind)

theorem refersTo_reference (property : String) :
    RefersTo ("var(" ++ property ++ ")") property :=
  refersTo_between "" "" (by simp) (by decide) (by decide)

/-- **A mirror refers to the property of its variable**, whatever its own name. -/
theorem refersTo_mirrorsOfBy {mirror : String × String} (hbare : IsBareName name bare)
    (hproperty : IsPropertyOf .v4 name property) (h : mirror ∈ mirrorsOfBy isColor bare value) :
    RefersTo mirror.2 property := by
  obtain rfl := isBareName_iff.mp hbare
  obtain rfl := isPropertyOf_iff.mp hproperty
  have hcalc {value : String} (back : String)
      (hvalue : value = "calc(" ++ ("var(" ++ "--radius" ++ ")") ++ back)
      (hback : '(' ∉ back.toList) : RefersTo value "--radius" :=
    refersTo_between "calc(" back hvalue (by decide) hback
  have hname (bare : String) : "var(--" ++ bare ++ ")" = "var(" ++ ("--" ++ bare) ++ ")" := by
    rw [← String.append_assoc]
    simp
  unfold mirrorsOfBy at h
  unfold propertyFor customProperty
  split_ifs at h with hradius hsidebar hcolor
  · have hproperty : "--" ++ "radius" = "--radius" := by simp
    rw [if_neg (by rw [hradius]; decide), hradius, hproperty]
    simp only [radiusScale, List.mem_cons, List.not_mem_nil, or_false] at h
    rcases h with rfl | rfl | rfl | rfl
    · exact hcalc " - 4px)" (by simp) (by decide)
    · exact hcalc " - 2px)" (by simp) (by decide)
    · exact refersTo_reference "--radius"
    · exact hcalc " + 4px)" (by simp) (by decide)
  · rw [if_pos hsidebar, List.mem_singleton.mp h]
    exact refersTo_reference "--sidebar"
  · rw [if_neg hsidebar, List.mem_singleton.mp h, hname]
    exact refersTo_reference ("--" ++ bareName name)
  · rw [if_neg hsidebar, List.mem_singleton.mp h, hname]
    exact refersTo_reference ("--" ++ bareName name)

/-! ### Names with a value -/

/-- **A value decides how a variable is mirrored** if it is the value of the variable in light
mode, or that in dark mode where there is none in light mode or an empty one. -/
structure Decides (vars : Variables) (name value : String) : Prop where
  filled : value ≠ ""
  given : vars.light.Gives name value ∨
    vars.dark.Gives name value ∧ ∀ light, vars.light.Gives name light → light = ""

theorem decidingValue?_eq_some_iff :
    decidingValue? vars name = some value ↔ Decides vars name value := by
  have hfilled (found : Option String) :
      nonempty? found = some value ↔ found = some value ∧ value ≠ "" := by
    simp [nonempty?, Option.filter_eq_some_iff]
  have hempty (found : Option String) :
      nonempty? found = none ↔ ∀ given, found = some given → given = "" := by
    simp [nonempty?, Option.filter_eq_none_iff]
  rw [decidingValue?_eq, Option.or_eq_some_iff, hfilled, hfilled, hempty]
  simp only [Entries.find?_eq_some_iff]
  constructor
  · rintro (⟨hlight, hne⟩ | ⟨hempty, hdark, hne⟩)
    · exact ⟨hne, .inl hlight⟩
    · exact ⟨hne, .inr ⟨hdark, hempty⟩⟩
  · rintro ⟨hne, hlight | ⟨hdark, hempty⟩⟩
    · exact .inl ⟨hlight, hne⟩
    · exact .inr ⟨hempty, hdark, hne⟩

theorem Decides.mem_names (h : Decides vars name value) :
    (∃ entry ∈ vars.light, entry.1 = name) ∨ ∃ entry ∈ vars.dark, entry.1 = name := by
  obtain ⟨front, back, hlight, -⟩ | ⟨⟨front, back, hdark, -⟩, -⟩ := h.given
  · exact .inl ⟨(name, value), by rw [hlight]; simp, rfl⟩
  · exact .inr ⟨(name, value), by rw [hdark]; simp, rfl⟩

/-- **A mirror of the variables**: one that a variable has by the value that decides. -/
def IsMirror (isColor : String → Bool) (vars : Variables) (mirror : String × String) : Prop :=
  ∃ name bare value, IsBareName name bare ∧ Decides vars name value ∧
    mirror ∈ mirrorsOfBy isColor bare value

/-- Each name with a value has its mirrors, and there are no others. -/
theorem mem_mirrorsBy {mirror : String × String} :
    mirror ∈ mirrorsBy isColor vars ↔ IsMirror isColor vars mirror := by
  simp only [IsMirror, isBareName_iff, ← decidingValue?_eq_some_iff, exists_and_left,
    exists_eq_left']
  unfold mirrorsBy
  rw [List.mem_flatMap]
  constructor
  · rintro ⟨name, -, hmirror⟩
    cases hvalue : decidingValue? vars name with
    | none => simp [hvalue] at hmirror
    | some value => exact ⟨name, value, hvalue, by simpa [hvalue] using hmirror⟩
  · rintro ⟨name, value, hvalue, hmirror⟩
    refine ⟨name, ?_, by simpa [hvalue] using hmirror⟩
    rw [modeNames, mem_firsts, List.mem_append]
    rcases (decidingValue?_eq_some_iff.mp hvalue).mem_names with
      ⟨entry, hentry, rfl⟩ | ⟨entry, hentry, rfl⟩
    · exact .inl (List.mem_map_of_mem hentry)
    · exact .inr (List.mem_map_of_mem hentry)

/-! ### Writing in the theme -/

/-- Keyframes are no declarations. -/
theorem filter_addKeyframes (property : String) (keyframes : Entries (Entries (Entries String)))
    (theme : List Node) :
    (addKeyframes keyframes theme).filter (Node.declares property) =
      theme.filter (Node.declares property) := by
  unfold addKeyframes
  induction keyframes generalizing theme with
  | nil => rfl
  | cons entry rest ih =>
    have hnode : ¬(keyframesNode entry.1 entry.2).declares property := by
      simp [keyframesNode, Node.declares, Node.declaration?]
    have hmarker : ¬Css.breakMarker.declares property := by
      simp [Css.breakMarker, Node.declares, Node.declaration?]
    have hpush : (Css.push true (keyframesNode entry.1 entry.2) theme).filter
        (Node.declares property) = theme.filter (Node.declares property) := by
      unfold Css.push
      split_ifs <;> simp [hnode, hmarker]
    rw [List.foldl_cons, ih]
    dsimp only
    split_ifs
    · rfl
    · exact hpush

theorem occurrences_addKeyframes (property : String)
    (keyframes : Entries (Entries (Entries String))) (theme : List Node) :
    occurrences property (addKeyframes keyframes theme) = occurrences property theme := by
  rw [occurrences, List.countP_eq_length_filter, filter_addKeyframes,
    ← List.countP_eq_length_filter, occurrences]

/-- The value of a property is that of the declarations that declare it. -/
theorem valueOf?_filter (property : String) (nodes : List Node) :
    valueOf? property (nodes.filter (Node.declares property)) = valueOf? property nodes := by
  induction nodes with
  | nil => rfl
  | cons node rest ih =>
    by_cases hnode : node.declares property
    · rw [List.filter_cons_of_pos hnode]
      cases node with
      | declaration other value layout =>
        rw [Css.valueOf?_declaration, Css.valueOf?_declaration, ih]
      | _ => simp [Node.declares, Node.declaration?] at hnode
    · rw [List.filter_cons_of_neg hnode, Css.valueOf?_cons_of_not_declares hnode, ih]

/-- **The value of a property in the theme**, by what is written there one after the other. -/
theorem valueOf?_theme_installBy (isColor : String → Bool) (vars : Variables)
    (settings : Settings) (options : Options) (nodes : List Node) (property : String) :
    valueOf? property (contentsOf inlineTheme (installBy isColor vars settings options nodes)) =
      writtenValue? false property (animationsOf options.legacy)
        (writtenValue? false property (mirrorsBy isColor vars)
          (writtenValue? options.overwrite property (themeDeclarations vars.theme)
            (valueOf? property (contentsOf inlineTheme nodes)))) := by
  rw [contentsOf_theme_installBy, ← valueOf?_filter, filter_addKeyframes, valueOf?_filter,
    valueOf?_insertAll, valueOf?_insertAll, valueOf?_writeThemeEntries]

/-- A property that has a value keeps one. -/
theorem isSome_writtenValue?_of_isSome {old : Option String} (h : old.isSome) (overwrite : Bool)
    (property : String) (declarations : List (String × String)) :
    (writtenValue? overwrite property declarations old).isSome := by
  cases overwrite <;> simp [writtenValue?, h]

/-- **Each mirror is declared**, whatever else is written. -/
theorem isDeclared_mirror_installBy {mirror : String × String}
    (h : mirror ∈ mirrorsBy isColor vars) (settings : Settings) (options : Options)
    (nodes : List Node) :
    isDeclared mirror.1
      (contentsOf inlineTheme (installBy isColor vars settings options nodes)) := by
  rw [← Css.isSome_valueOf?, valueOf?_theme_installBy]
  exact isSome_writtenValue?_of_isSome (isSome_writtenValue? h _ _) _ _ _

/-- **So is each entry of the theme.** -/
theorem isDeclared_entry_installBy {entry : String × String} (h : entry ∈ vars.theme)
    (isColor : String → Bool) (settings : Settings) (options : Options) (nodes : List Node) :
    isDeclared (customProperty entry.1)
      (contentsOf inlineTheme (installBy isColor vars settings options nodes)) := by
  have hmem : (customProperty entry.1, entry.2) ∈ themeDeclarations vars.theme :=
    List.mem_map_of_mem h
  rw [← Css.isSome_valueOf?, valueOf?_theme_installBy]
  exact isSome_writtenValue?_of_isSome
    (isSome_writtenValue?_of_isSome (isSome_writtenValue? hmem _ _) _ _ _) _ _ _

/-- **A value is an old one or one that was written.** -/
theorem mem_of_valueOf?_theme_installBy
    (h : valueOf? property
        (contentsOf inlineTheme (installBy isColor vars settings options nodes)) =
      some value) :
    valueOf? property (contentsOf inlineTheme nodes) = some value ∨
      (property, value) ∈ themeDeclarations vars.theme ∨
      (property, value) ∈ mirrorsBy isColor vars ∨
      (property, value) ∈ animationsOf options.legacy := by
  rw [valueOf?_theme_installBy] at h
  rcases mem_of_writtenValue? h with h | hanimation
  · rcases mem_of_writtenValue? h with h | hmirror
    · rcases mem_of_writtenValue? h with hold | hentry
      · exact .inl hold
      · exact .inr (.inl hentry)
    · exact .inr (.inr (.inl hmirror))
  · exact .inr (.inr (.inr hanimation))

/-- **No property is declared once more** that is declared. -/
theorem occurrences_theme_installBy (isColor : String → Bool) (vars : Variables)
    (settings : Settings) (options : Options) (nodes : List Node) (property : String) :
    occurrences property
        (contentsOf inlineTheme (installBy isColor vars settings options nodes)) ≤
      max 1 (occurrences property (contentsOf inlineTheme nodes)) := by
  rw [contentsOf_theme_installBy, occurrences_addKeyframes]
  generalize contentsOf inlineTheme nodes = theme
  have hentries := occurrences_writeThemeEntries options.overwrite property vars.theme theme
  generalize vars.theme.foldl (writeThemeEntry options.overwrite) theme = withEntries
    at hentries ⊢
  have hmirrors := occurrences_insertAll property (mirrorsBy isColor vars) withEntries
  have hanimations := occurrences_insertAll property (animationsOf options.legacy)
    (insertAll (mirrorsBy isColor vars) withEntries)
  omega

/-! ### The theme afterwards -/

/-- **The theme mirrors the variables**, where `before` was in it in front of the installation,
whose result is `installed`. -/
structure IsMirrored (isColor : String → Bool) (vars : Variables) (options : Options)
    (before installed : List Node) : Prop where
  /-- Each variable with a value in some mode has its mirrors, by the value that decides. -/
  mirrors : ∀ name given, given ≠ "" → vars.light.Gives name given ∨ vars.dark.Gives name given →
    ∃ bare deciding, IsBareName name bare ∧ Decides vars name deciding ∧
      ∀ mirror ∈ mirrorsOfBy isColor bare deciding,
        isDeclared mirror.1 (contentsOf inlineTheme installed)
  /-- Each entry of the theme is declared. -/
  entries : ∀ entry ∈ vars.theme,
    isDeclared (customProperty entry.1) (contentsOf inlineTheme installed)
  /-- What is new is a mirror, an entry of the theme or an animation. -/
  new : ∀ property value, ¬isDeclared property before →
    valueOf? property (contentsOf inlineTheme installed) = some value →
    IsMirror isColor vars (property, value) ∨
      (property, value) ∈ themeDeclarations vars.theme ∨
      (property, value) ∈ animationsOf options.legacy
  /-- What a mirror refers to is declared in the rule of a mode. -/
  references : ∀ mirror, IsMirror isColor vars mirror → ∃ property, RefersTo mirror.2 property ∧
    ((valueAt? [.rule (Selectors.ofRegistry options.registry).light] property installed).isSome ∨
      (valueAt? [.rule (Selectors.ofRegistry options.registry).dark] property installed).isSome)
  /-- What was declared once is not declared twice. -/
  once : ∀ property, occurrences property before ≤ 1 →
    occurrences property (contentsOf inlineTheme installed) ≤ 1

/-- A variable with a value in some mode has one that decides. -/
theorem exists_decides {given : String} (hfilled : given ≠ "")
    (h : vars.light.Gives name given ∨ vars.dark.Gives name given) :
    ∃ deciding, Decides vars name deciding := by
  by_cases hlight : ∃ light, vars.light.Gives name light ∧ light ≠ ""
  · obtain ⟨light, hgives, hne⟩ := hlight
    exact ⟨light, hne, .inl hgives⟩
  · have hempty : ∀ light, vars.light.Gives name light → light = "" := by simpa using hlight
    rcases h with hgives | hgives
    · exact absurd (hempty given hgives) hfilled
    · exact ⟨given, hfilled, .inr ⟨hgives, hempty⟩⟩

/-- A variable with a value is declared in the rule of a mode. -/
theorem exists_isPropertyOf_installBy (h : Decides vars name value)
    (isColor : String → Bool) (settings : Settings) (options : Options) (nodes : List Node) :
    ∃ property, IsPropertyOf .v4 name property ∧
      ((valueAt? [.rule (Selectors.ofRegistry options.registry).light] property
          (installBy isColor vars settings options nodes)).isSome ∨
        (valueAt? [.rule (Selectors.ofRegistry options.registry).dark] property
          (installBy isColor vars settings options nodes)).isSome) := by
  obtain ⟨hlight, hdark⟩ := areDelivered_installBy isColor vars settings options nodes
  rcases h.mem_names with ⟨entry, hentry, rfl⟩ | ⟨entry, hentry, rfl⟩
  · obtain ⟨property, value, hproperty, hvalue, -⟩ := hlight entry hentry
    exact ⟨property, hproperty, .inl (Option.isSome_of_eq_some hvalue)⟩
  · obtain ⟨property, value, hproperty, hvalue, -⟩ := hdark entry hentry
    exact ⟨property, hproperty, .inr (Option.isSome_of_eq_some hvalue)⟩

/-- **After installing variables, the theme mirrors them**, whatever counts as a colour. What
version 4 installs is the case of the colours of style sheets. -/
theorem isMirrored_installBy (vars : Variables) (settings : Settings) (options : Options)
    (nodes : List Node) :
    install vars { settings with version := .v4 } options nodes =
        installBy Color.isColorValue vars { settings with version := .v4 } options nodes ∧
      ∀ isColor, IsMirrored isColor vars options (contentsOf inlineTheme nodes)
        (installBy isColor vars { settings with version := .v4 } options nodes) := by
  refine ⟨install_v4 rfl vars options nodes, fun isColor => ?_⟩
  generalize ({ settings with version := .v4 } : Settings) = settings
  constructor
  · intro name given hfilled hgiven
    obtain ⟨deciding, hdecides⟩ := exists_decides hfilled hgiven
    refine ⟨bareName name, deciding, isBareName_iff.mpr rfl, hdecides, fun mirror hmirror => ?_⟩
    have hmem : mirror ∈ mirrorsBy isColor vars :=
      mem_mirrorsBy.mpr ⟨name, bareName name, deciding, isBareName_iff.mpr rfl, hdecides, hmirror⟩
    exact isDeclared_mirror_installBy hmem settings options nodes
  · intro entry hentry
    exact isDeclared_entry_installBy hentry isColor settings options nodes
  · intro property value hbefore hafter
    rw [← Css.isSome_valueOf?, Option.not_isSome_iff_eq_none] at hbefore
    rcases mem_of_valueOf?_theme_installBy hafter with hold | hentry | hmirror | hanimation
    · rw [hbefore] at hold
      cases hold
    · exact .inr (.inl hentry)
    · exact .inl (mem_mirrorsBy.mp hmirror)
    · exact .inr (.inr hanimation)
  · rintro mirror ⟨name, bare, value, hbare, hdecides, hmirror⟩
    obtain ⟨property, hproperty, hdeclared⟩ :=
      exists_isPropertyOf_installBy hdecides isColor settings options nodes
    exact ⟨property, refersTo_mirrorsOfBy hbare hproperty hmirror, hdeclared⟩
  · intro property hbefore
    have hafter := occurrences_theme_installBy isColor vars settings options nodes property
    omega

end Restyle.Theme
