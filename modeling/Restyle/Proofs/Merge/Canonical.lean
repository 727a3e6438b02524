import Restyle.Merge.Rules
import Restyle.Proofs.Css.Distinct

/-!
# Merging rules makes no duplicates

A canonical style sheet stays canonical, whatever rule descriptions are merged into it, one after
the other, and whether or not each of them fits (`Restyle.Merge.isCanonical_mergeEach`). What an
edit does at the end of its path keeps the nodes of every container distinct, however long the path
is (`Restyle.Merge.areDistinct_alongPath`), so that this is a matter of single edits.

With the plugins it is not: an edit that states an at-rule asks for its label alone, and it would
state a plugin again that is there in other quotes. No plan does that. Its edits are **common**
(`Restyle.Merge.Edit.IsCommon`), apart from those for imports and plugins: at the top of the style
sheet they neither look for nor make an at-rule for an import or a plugin. This is so because a
key is read for imports and plugins first, and everything else that a key asks for starts at
another place.
-/

namespace Restyle.Merge

open Restyle.Css (AreDistinct IsCanonical Label Node Place Sheet)
open Restyle.Json (Value)

variable {path : Path} {nodes : List Node} {place : Place}

/-! ### Distinct nodes at every path -/

theorem areDistinct_alongPath {f : List Node → List Node}
    (hf : ∀ inner, AreDistinct inner → AreDistinct (f inner)) (path : Path)
    (h : AreDistinct nodes) : AreDistinct (alongPath f path nodes) := by
  induction path generalizing nodes with
  | nil => exact hf nodes h
  | cons step path ih => exact h.enter step.place step.withBreak fun _ => ih

theorem areDistinct_reachPath (path : Path) (h : AreDistinct nodes) :
    AreDistinct (reachPath path nodes) := by
  induction path generalizing nodes with
  | nil => exact h
  | cons step path ih =>
    cases path with
    | nil => exact h.reach step.place step.withBreak
    | cons next path => exact h.enter step.place step.withBreak fun _ => ih

/-! ### Common edits -/

/-- The label that a path takes at the top of a style sheet. -/
def Path.label? (path : Path) : Option Label :=
  path.head?.map fun step => step.place.label

/-- The label that an edit takes at the top of a style sheet. -/
def Edit.label? : Edit → Option Label
  | .reach path => path.label?
  | .declare path property _ => path.label?.or (some (.property property))
  | .state path name params _ => path.label?.or (some (.atRule name params))
  | .importSheet params => some (.atRule "import" params)
  | .plugin params => some (.atRule "plugin" (Css.writtenPlugin params))

/-- **A label is common** if it is not that of an import or a plugin. -/
def IsCommonLabel : Label → Prop
  | .atRule name _ => name ≠ "import" ∧ name ≠ "plugin"
  | _ => True

/-- A path does not start at an import or a plugin. -/
def Path.IsCommon (path : Path) : Prop := ∀ label ∈ path.label?, IsCommonLabel label

/-- An edit takes no label of an import or a plugin. -/
def Edit.IsCommon (edit : Edit) : Prop := ∀ label ∈ edit.label?, IsCommonLabel label

/-- All edits of a plan are common. -/
def Plan.IsCommon (plan : Plan) : Prop := ∀ edit ∈ plan.edits, edit.IsCommon

theorem below_ne_nil (path : Path) (place : Place) (withBreak : Bool) :
    below path place withBreak ≠ [] := by
  simp [below]

theorem Path.IsCommon.nil : Path.IsCommon [] := nofun

/-- Only the first place of a path is at the top. -/
theorem Path.IsCommon.below_of_ne_nil (h : path.IsCommon) (hne : path ≠ []) (place : Place)
    (withBreak : Bool) : (below path place withBreak).IsCommon := by
  cases path with
  | nil => exact absurd rfl hne
  | cons step path => exact h

theorem Path.IsCommon.below (h : path.IsCommon) (place : Place)
    (hplace : IsCommonLabel place.label) (withBreak : Bool) :
    (below path place withBreak).IsCommon := by
  cases path with
  | nil =>
    intro label hlabel
    obtain rfl : place.label = label := by simpa [Merge.below, Path.label?] using hlabel
    exact hplace
  | cons step path => exact h

theorem Path.IsCommon.declare (h : path.IsCommon) (property value : String) :
    (Edit.declare path property value).IsCommon := by
  intro label hlabel
  cases path with
  | nil =>
    obtain rfl : .property property = label := by
      simpa [Edit.label?, Path.label?] using hlabel
    trivial
  | cons step path => exact h label hlabel

namespace Plan.IsCommon

variable {first second : Plan}

theorem empty : Plan.IsCommon {} := by simp [Plan.IsCommon]

theorem stop (failure : Failure) : (Plan.stop failure).IsCommon := by
  simp [Plan.IsCommon, Plan.stop]

theorem edit {edit : Edit} (h : edit.IsCommon) : (Plan.edit edit).IsCommon := by
  simpa [Plan.IsCommon, Plan.edit] using h

theorem andThen (hfirst : first.IsCommon) (hsecond : second.IsCommon) :
    (first.andThen second).IsCommon := by
  rw [Plan.andThen]
  cases first.failure with
  | some failure => exact hfirst
  | none =>
    intro edit hedit
    rcases List.mem_append.mp hedit with hedit | hedit
    · exact hfirst edit hedit
    · exact hsecond edit hedit

/-- Reaching a path that is then edited. -/
theorem behindReach (hpath : path.IsCommon) (h : second.IsCommon) :
    ((Plan.edit (.reach path)).andThen second).IsCommon := by
  have hreach : (Edit.reach path).IsCommon := hpath
  exact (edit hreach).andThen h

end Plan.IsCommon

/-! ### Plans of common edits -/

theorem isCommon_planText (hpath : path.IsCommon) (text : String) :
    (planText path text).IsCommon := by
  rw [planText]
  cases Css.declarationsOfString text with
  | error error => exact .stop _
  | ok declarations =>
    intro edit hedit
    obtain ⟨⟨property, value⟩, -, rfl⟩ := List.mem_map.mp hedit
    exact hpath.declare property value

theorem isCommon_planStrings (hpath : path.IsCommon) (selector : String)
    (members : List (String × Value)) : (planStrings path selector members).IsCommon := by
  induction members with
  | nil => exact .empty
  | cons member members ih =>
    obtain ⟨property, value⟩ := member
    cases value with
    | string text => exact (Plan.IsCommon.edit (hpath.declare property text)).andThen ih
    | object => exact ih
    | _ => exact .stop _

mutual

theorem isCommon_planRule {path : Path} (hpath : path.IsCommon) (selector : String)
    (withBreak : Bool) :
    ∀ body, (planRule path selector withBreak body).IsCommon
  | .string text => by
    have hinner := hpath.below (.rule selector) trivial withBreak
    rw [planRule]
    exact (isCommon_planText hinner text).behindReach hinner
  | .object members => by
    have hinner := hpath.below (.rule selector) trivial withBreak
    rw [planRule]
    exact ((isCommon_planStrings hinner selector members).behindReach hinner).andThen
      (isCommon_planNested hpath selector withBreak members)
  | .null | .bool _ | .number _ | .garbled | .array _ => by
    have hinner := hpath.below (.rule selector) trivial withBreak
    simpa only [planRule] using (Plan.IsCommon.stop _).behindReach hinner

theorem isCommon_planNested {path : Path} (hpath : path.IsCommon) (selector : String)
    (withBreak : Bool) :
    ∀ members, (planNested path selector withBreak members).IsCommon
  | [] => .empty
  | (key, .object inner) :: members => by
    rw [planNested]
    refine Plan.IsCommon.andThen ?_ (isCommon_planNested hpath selector withBreak members)
    cases behindAt? key with
    | none => exact isCommon_planRule hpath (nestedSelector selector key) withBreak (.object inner)
    | some rest =>
      dsimp only
      cases splitAtRule? rest with
      | none => exact .stop _
      | some atRule =>
        have hinner := hpath.below (.rule selector) trivial withBreak
        have hatRule := hinner.below_of_ne_nil (below_ne_nil _ _ _) (.atRule atRule.1 atRule.2) true
        exact (isCommon_planAtRule hatRule (.object inner)).behindReach hinner
  | (key, .null) :: members | (key, .bool _) :: members | (key, .number _) :: members
  | (key, .string _) :: members | (key, .garbled) :: members | (key, .array _) :: members => by
    simpa only [planNested] using
      Plan.IsCommon.empty.andThen (isCommon_planNested hpath selector withBreak members)

theorem isCommon_planAtRule {path : Path} {name params : String}
    (hpath : (below path (.atRule name params) true).IsCommon) :
    ∀ body, (planAtRule path name params body).IsCommon
  | .string text => by
    rw [planAtRule]
    exact (isCommon_planText hpath text).behindReach hpath
  | .object [] => by
    rw [planAtRule]
    refine Plan.IsCommon.edit fun label hlabel => hpath label ?_
    cases path <;> exact hlabel
  | .object (member :: members) => by
    rw [planAtRule]
    exact (isCommon_planAtRuleMembers hpath (below_ne_nil _ _ _) _
      (member :: members)).behindReach hpath
  | .null | .bool _ | .number _ | .garbled | .array _ => by
    simpa only [planAtRule] using (Plan.IsCommon.stop _).behindReach hpath

theorem isCommon_planAtRuleMembers {path : Path} (hpath : path.IsCommon) (hne : path ≠ [])
    (label : String) :
    ∀ members, (planAtRuleMembers path label members).IsCommon
  | [] => .empty
  | (key, value) :: members => by
    rw [planAtRuleMembers.eq_def]
    refine Plan.IsCommon.andThen ?_ (isCommon_planAtRuleMembers hpath hne label members)
    cases behindAt? key with
    | none =>
      cases value with
      | string text => exact .edit (hpath.declare key text)
      | object inner => exact isCommon_planRule hpath key false (.object inner)
      | _ => exact .stop _
    | some rest =>
      dsimp only
      cases splitAtRule? rest with
      | none => exact .stop _
      | some atRule => exact isCommon_planAtRule (hpath.below_of_ne_nil hne _ true) value

end

theorem isCommon_planBlockMembers (hpath : path.IsCommon) (hne : path ≠ []) (label : String)
    (members : List (String × Value)) : (planBlockMembers path label members).IsCommon := by
  induction members with
  | nil => exact .empty
  | cons member members ih =>
    obtain ⟨key, value⟩ := member
    rw [planBlockMembers.eq_def]
    refine Plan.IsCommon.andThen ?_ ih
    cases value with
    | string text => exact .edit (hpath.declare key text)
    | object inner =>
      cases behindAt? key with
      | none => exact isCommon_planRule hpath key false (.object inner)
      | some rest =>
        dsimp only
        cases splitAtRule? rest with
        | none => exact .stop _
        | some atRule =>
          exact isCommon_planAtRule (hpath.below_of_ne_nil hne _ true) (.object inner)
    | _ => exact .stop _

theorem isCommon_planBlock {name params : String}
    (hname : IsCommonLabel (.atRule name params)) (key : String) (body : Value) :
    (planBlock name params key body).IsCommon := by
  have hpath : Path.IsCommon [⟨.atRule name params, true⟩] :=
    Path.IsCommon.nil.below (.atRule name params) hname true
  rw [planBlock.eq_def]
  refine Plan.IsCommon.behindReach hpath ?_
  cases body with
  | string text => exact isCommon_planText hpath text
  | object members => exact isCommon_planBlockMembers hpath (by simp) key members
  | _ => exact .stop _

theorem isCommon_planSteps (hpath : path.IsCommon) (steps : List (String × Value)) :
    (planSteps path steps).IsCommon := by
  induction steps with
  | nil => exact .empty
  | cons step steps ih =>
    obtain ⟨key, value⟩ := step
    rw [planSteps]
    refine Plan.IsCommon.andThen ?_ ih
    split_ifs
    · exact .empty
    · exact isCommon_planRule hpath key false value

theorem isCommon_planKeyframes (name : String) (body : Value) :
    (planKeyframes name body).IsCommon := by
  cases body with
  | object steps =>
    -- Animations are inside the inline theme, so their own names are not at the top.
    have htheme : Path.IsCommon [⟨.atRule "theme" "inline", true⟩] :=
      Path.IsCommon.nil.below (.atRule "theme" "inline") (by simp [IsCommonLabel, Place.label]) true
    have hpath : Path.IsCommon
        [⟨.atRule "theme" "inline", true⟩, ⟨.atRule "keyframes" name, false⟩] :=
      htheme.below_of_ne_nil (by simp) (.atRule "keyframes" name) false
    exact (isCommon_planSteps hpath steps).behindReach hpath
  | _ => exact .stop _

/-- A key is read for imports and plugins first. -/
theorem isCommonLabel_of_classify? {key name params : String} {body : Value}
    (h : Key.classify? key body = some (.atRule name params) ∨
      Key.classify? key body = some (.bodyless name params)) :
    IsCommonLabel (.atRule name params) := by
  unfold Key.classify? at h
  split at h
  · simp at h
  · next rest _ =>
    cases hsplit : splitAtRule? rest with
    | none => simp [hsplit] at h
    | some atRule =>
      simp only [hsplit, Option.map_some, Option.some.injEq] at h
      split_ifs at h <;> simp_all [IsCommonLabel]

/-- **What a key asks for** is an import, a plugin, or a plan of common edits. -/
theorem planKey_cases (key : String) (body : Value) :
    (∃ params, Key.classify? key body = some (.importSheet params) ∧
        planKey key body = .edit (.importSheet params)) ∨
      (∃ params, Key.classify? key body = some (.plugin params) ∧
        planKey key body = .edit (.plugin params)) ∨
      ((∀ params, Key.classify? key body ≠ some (.importSheet params)) ∧
        (∀ params, Key.classify? key body ≠ some (.plugin params)) ∧
        (planKey key body).IsCommon) := by
  rw [planKey]
  cases hkey : Key.classify? key body with
  | none => exact .inr (.inr ⟨by simp, by simp, .empty⟩)
  | some kind =>
    cases kind with
    | importSheet params => exact .inl ⟨params, rfl, rfl⟩
    | plugin params => exact .inr (.inl ⟨params, rfl, rfl⟩)
    | selector text =>
      exact .inr (.inr ⟨by simp, by simp, isCommon_planRule Path.IsCommon.nil text true body⟩)
    | bodyless name params =>
      refine .inr (.inr ⟨by simp, by simp, Plan.IsCommon.edit fun label hlabel => ?_⟩)
      obtain rfl : .atRule name params = label := by
        simpa [Edit.label?, Path.label?] using hlabel
      exact isCommonLabel_of_classify? (.inr hkey)
    | keyframes name => exact .inr (.inr ⟨by simp, by simp, isCommon_planKeyframes name body⟩)
    | utility params =>
      exact .inr (.inr ⟨by simp, by simp, isCommon_planBlock (by simp [IsCommonLabel]) key body⟩)
    | property params =>
      exact .inr (.inr ⟨by simp, by simp, isCommon_planBlock (by simp [IsCommonLabel]) key body⟩)
    | atRule name params =>
      have hpath := Path.IsCommon.nil.below (.atRule name params)
        (isCommonLabel_of_classify? (.inl hkey)) true
      exact .inr (.inr ⟨by simp, by simp, isCommon_planAtRule hpath body⟩)

/-! ### Canonical style sheets -/

/-- What is planned: common edits, and the edits for imports and plugins. -/
def Edit.IsOrderly : Edit → Prop
  | .importSheet _ | .plugin _ => True
  | edit => edit.IsCommon

theorem Edit.IsCommon.isOrderly {edit : Edit} (h : edit.IsCommon) : edit.IsOrderly := by
  cases edit <;> first | exact h | trivial

/-- **All that a rule description plans is orderly**, as far as it is followed. -/
theorem isOrderly_planRules (rules : Entries Value) :
    ∀ edit ∈ (planRules rules).edits, edit.IsOrderly := by
  induction rules with
  | nil => simp [planRules]
  | cons rule rules ih =>
    obtain ⟨key, body⟩ := rule
    have hkey : ∀ edit ∈ (planKey key body).edits, edit.IsOrderly := by
      rcases planKey_cases key body with ⟨params, -, hplan⟩ | ⟨params, -, hplan⟩ | ⟨-, -, hcommon⟩
      · simp [hplan, Plan.edit, Edit.IsOrderly]
      · simp [hplan, Plan.edit, Edit.IsOrderly]
      · exact fun edit hedit => (hcommon edit hedit).isOrderly
    intro edit hedit
    rw [planRules, Plan.andThen] at hedit
    cases hfailure : (planKey key body).failure with
    | some failure =>
      rw [hfailure] at hedit
      exact hkey edit hedit
    | none =>
      rw [hfailure] at hedit
      rcases List.mem_append.mp hedit with hedit | hedit
      · exact hkey edit hedit
      · exact ih edit hedit

/-- **An orderly edit keeps a style sheet canonical.** -/
theorem Edit.isCanonical_make {edit : Edit} (hedit : edit.IsOrderly) (h : IsCanonical nodes) :
    IsCanonical (edit.make nodes) := by
  cases edit with
  | reach path =>
    match path with
    | [] => exact h
    | [step] => exact h.reach step.place step.withBreak
    | step :: next :: path =>
      exact h.enter step.place step.withBreak fun _ => areDistinct_reachPath (next :: path)
  | declare path property value =>
    cases path with
    | nil => exact h.declare property value
    | cons step path =>
      exact h.enter step.place step.withBreak fun _ =>
        areDistinct_alongPath (fun _ h => h.declare property value) path
  | state path name params withBreak =>
    cases path with
    | nil =>
      have hname : name ≠ "plugin" := (hedit (.atRule name params) rfl).2
      exact h.ensureStatement hname params withBreak
    | cons step path =>
      exact h.enter step.place step.withBreak fun _ =>
        areDistinct_alongPath (fun _ h => h.ensureStatement name params withBreak) path
  | importSheet params => exact h.ensureImport params
  | plugin params => exact h.ensurePlugin params

theorem isCanonical_makeAll {edits : List Edit} (hedits : ∀ edit ∈ edits, edit.IsOrderly)
    (h : IsCanonical nodes) : IsCanonical (makeAll edits nodes) := by
  induction edits generalizing nodes with
  | nil => exact h
  | cons edit edits ih =>
    obtain ⟨hedit, hedits⟩ := List.forall_mem_cons.mp hedits
    exact ih hedits (Edit.isCanonical_make hedit h)

/-- A style sheet with the rules of several descriptions, each of them as far as it fits. -/
def mergeEach (descriptions : List (Entries Value)) (sheet : Sheet) : Sheet :=
  descriptions.foldl (fun sheet rules => (mergeRules rules sheet).1) sheet

/-- **A canonical style sheet stays canonical** with any rule descriptions merged into it, one
after the other, whether or not they fit. -/
theorem isCanonical_mergeEach {sheet : Sheet} (h : IsCanonical sheet.nodes)
    (descriptions : List (Entries Value)) : IsCanonical (mergeEach descriptions sheet).nodes := by
  induction descriptions generalizing sheet with
  | nil => exact h
  | cons rules descriptions ih =>
    exact ih (isCanonical_makeAll (isOrderly_planRules rules) h)

theorem isCanonical_mergeEach_quotes :
    let sheet : Sheet :=
      { nodes := [.statement "plugin" "'forms'" {}, .comment " rules " {}, .block "layer" "base"
          [.rule ".card" [.declaration "color" "red" {}] {}, .rule ".card:hover" [] {}] {}] }
    let layered : Entries Value :=
      [("@plugin forms", .object []), ("@layer  base", .object [(".card", .object
        [("color", .string "blue"), ("&:hover", .object [("color", .string "black")])])])]
    let faulty : Entries Value :=
      [("@plugin \"typography\"", .object []), (".card", .object [("margin", .null)]),
        ("@plugin icons", .object [])]
    IsCanonical sheet.nodes ∧ (mergeRules layered sheet).2 = none ∧
      (mergeRules faulty sheet).2 = some (.leaf ".card" "margin") ∧
      Css.statedPlugins (mergeEach [layered, faulty, layered] sheet).nodes =
        ["\"forms\"", "\"typography\""] ∧
      IsCanonical (mergeEach [layered, faulty, layered] sheet).nodes := by
  intro sheet layered faulty
  have hplugin : (Css.statedPlugins sheet.nodes).Nodup := by decide +kernel +revert
  have hfits : (mergeRules layered sheet).2 = none := by decide +kernel +revert
  have hfails : (mergeRules faulty sheet).2 = some (.leaf ".card" "margin") := by
    decide +kernel +revert
  have hplugins : Css.statedPlugins (mergeEach [layered, faulty, layered] sheet).nodes =
      ["\"forms\"", "\"typography\""] := by
    decide +kernel +revert
  have hcolor : AreDistinct [.declaration "color" "red" {}] :=
    .intro (by decide) (by simp [Node.children, AreDistinct.nil])
  have hlayer : AreDistinct [.rule ".card" [.declaration "color" "red" {}] {},
      .rule ".card:hover" [] {}] :=
    .intro (by decide) (by simp [Node.children, AreDistinct.nil, hcolor])
  have hsheet : AreDistinct sheet.nodes :=
    .intro (by decide) (by simp [sheet, Node.children, AreDistinct.nil, hlayer])
  have hcanonical : IsCanonical sheet.nodes := ⟨hsheet, hplugin⟩
  exact ⟨hcanonical, hfits, hfails, hplugins, isCanonical_mergeEach hcanonical _⟩

end Restyle.Merge
