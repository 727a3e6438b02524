import Restyle.Proofs.Css.Imports
import Restyle.Proofs.Merge.Canonical

/-!
# Merging rules keeps the imports in front

Rule descriptions name imports and plugins in any order, between keys of all other kinds. However
they come, the imports of the style sheet stay in front and in their order, and behind them are
those that were missing, in the order in which they were first asked for. With the plugins it is
the same, up to their quotes.

This is so for every edit (`Restyle.Merge.Edit.importsLead_make`, `Restyle.Merge.Edit.imports_make`,
`Restyle.Merge.Edit.plugins_make`): an edit for an import or a plugin asks for one more, and common
edits leave both kinds alone. What is asked for is told by the keys of the descriptions alone, as
far as they are followed (`Restyle.Merge.followed`). The sheet that comes out of several
descriptions is in `Restyle.Merge.imports_mergeEach`.
-/

namespace Restyle.Merge

open Restyle.Css (HasNo ImportsLead Label Node Sheet TakesLabel labels paramsOf pluginsOf)
open Restyle.Json (Value)

variable {edit : Edit} {edits : List Edit} {nodes : List Node} {key : String} {body : Value}

/-! ### Common edits -/

/-- What an edit adds at the top has the label that the edit takes. -/
theorem Edit.IsCommon.exists_append (h : edit.IsCommon) (nodes : List Node) :
    ∃ behind, labels (edit.make nodes) = labels nodes ++ behind ∧
      ∀ label, some label ∈ behind → IsCommonLabel label := by
  -- All edits but two work at one place, and only the first step of the way there is at the top.
  have htakes {label : Label} (hlabel : label ∈ edit.label?)
      (htakes : TakesLabel label (labels nodes) (labels (edit.make nodes))) :
      ∃ behind, labels (edit.make nodes) = labels nodes ++ behind ∧
        ∀ label, some label ∈ behind → IsCommonLabel label := by
    obtain ⟨behind, hbehind, hall⟩ := htakes.exists_append
    exact ⟨behind, hbehind, fun other hother => hall other hother ▸ h label hlabel⟩
  cases edit with
  | reach path =>
    match path with
    | [] => exact ⟨[], (List.append_nil _).symm, nofun⟩
    | [step] => exact htakes rfl (Css.takesLabel_reach step.place step.withBreak nodes)
    | step :: next :: path =>
      exact htakes rfl (Css.takesLabel_enter step.place step.withBreak _ nodes)
  | declare path property value =>
    cases path with
    | nil => exact htakes rfl (Css.takesLabel_declare property value nodes)
    | cons step path => exact htakes rfl (Css.takesLabel_enter step.place step.withBreak _ nodes)
  | state path name params withBreak =>
    cases path with
    | nil => exact htakes rfl (Css.takesLabel_ensureStatement name params withBreak nodes)
    | cons step path => exact htakes rfl (Css.takesLabel_enter step.place step.withBreak _ nodes)
  | importSheet params => exact absurd rfl (h (.atRule "import" params) rfl).1
  | plugin params => exact absurd rfl (h (.atRule "plugin" _) rfl).2

/-- **Common edits add neither imports nor plugins.** -/
theorem Edit.IsCommon.exists_append_hasNo (h : edit.IsCommon) (nodes : List Node) :
    ∃ behind, labels (edit.make nodes) = labels nodes ++ behind ∧
      HasNo "import" behind ∧ HasNo "plugin" behind := by
  obtain ⟨behind, hbehind, hall⟩ := h.exists_append nodes
  exact ⟨behind, hbehind, fun params hmem => (hall _ hmem).1 rfl,
    fun params hmem => (hall _ hmem).2 rfl⟩

theorem Edit.IsCommon.paramsOf_make (h : edit.IsCommon) (nodes : List Node) :
    paramsOf "import" (edit.make nodes) = paramsOf "import" nodes ∧
      pluginsOf (edit.make nodes) = pluginsOf nodes := by
  obtain ⟨behind, hbehind, himport, hplugin⟩ := h.exists_append_hasNo nodes
  constructor
  · rw [paramsOf, hbehind, Css.labelParams_append, himport.labelParams, List.append_nil, paramsOf]
  · rw [pluginsOf, paramsOf, hbehind, Css.labelParams_append, hplugin.labelParams,
      List.append_nil, pluginsOf, paramsOf]

/-! ### One edit -/

/-- The import that an edit asks for. -/
def Edit.imports : Edit → List String
  | .importSheet params => [params]
  | _ => []

/-- The plugin that an edit asks for, in double quotes. -/
def Edit.plugins : Edit → List String
  | .plugin params => [Css.quotedPlugin params]
  | _ => []

theorem Edit.IsCommon.imports (h : edit.IsCommon) : edit.imports = [] := by
  cases edit with
  | importSheet params => exact absurd rfl (h (.atRule "import" params) rfl).1
  | _ => rfl

theorem Edit.IsCommon.plugins (h : edit.IsCommon) : edit.plugins = [] := by
  cases edit with
  | plugin params => exact absurd rfl (h (.atRule "plugin" _) rfl).2
  | _ => rfl

/-- An orderly edit is for an import, for a plugin, or common. -/
theorem Edit.IsOrderly.cases (h : edit.IsOrderly) :
    (∃ params, edit = .importSheet params) ∨ (∃ params, edit = .plugin params) ∨
      edit.IsCommon := by
  cases edit with
  | importSheet params => exact .inl ⟨params, rfl⟩
  | plugin params => exact .inr (.inl ⟨params, rfl⟩)
  | _ => exact .inr (.inr h)

/-- **Imports that lead do so after an edit.** -/
theorem Edit.importsLead_make (hedit : edit.IsOrderly) (h : ImportsLead nodes) :
    ImportsLead (edit.make nodes) := by
  rcases hedit.cases with ⟨params, rfl⟩ | ⟨params, rfl⟩ | hcommon
  · exact h.ensureImport params
  · exact h.ensurePlugin params
  · obtain ⟨behind, hbehind, hnone, -⟩ := hcommon.exists_append_hasNo nodes
    rw [ImportsLead, hbehind]
    exact Css.pairwise_append_of_hasNo h hnone

theorem Edit.imports_make (hedit : edit.IsOrderly) (nodes : List Node) :
    paramsOf "import" (edit.make nodes) = withMissing (paramsOf "import" nodes) edit.imports := by
  rcases hedit.cases with ⟨params, rfl⟩ | ⟨params, rfl⟩ | hcommon
  · exact Css.paramsOf_ensureImport params nodes
  · exact (Css.paramsOf_ensurePlugin params nodes).trans (withMissing_nil _).symm
  · rw [(hcommon.paramsOf_make nodes).1, hcommon.imports, withMissing_nil]

theorem Edit.plugins_make (hedit : edit.IsOrderly) (nodes : List Node) :
    pluginsOf (edit.make nodes) = withMissing (pluginsOf nodes) edit.plugins := by
  rcases hedit.cases with ⟨params, rfl⟩ | ⟨params, rfl⟩ | hcommon
  · exact (Css.pluginsOf_ensureImport params nodes).trans (withMissing_nil _).symm
  · exact Css.pluginsOf_ensurePlugin params nodes
  · rw [(hcommon.paramsOf_make nodes).2, hcommon.plugins, withMissing_nil]

/-! ### Several edits -/

theorem importsLead_makeAll (hedits : ∀ edit ∈ edits, edit.IsOrderly) (h : ImportsLead nodes) :
    ImportsLead (makeAll edits nodes) := by
  induction edits generalizing nodes with
  | nil => exact h
  | cons edit edits ih =>
    obtain ⟨hedit, hedits⟩ := List.forall_mem_cons.mp hedits
    exact ih hedits (Edit.importsLead_make hedit h)

/-- What every edit adds to a list unless it is there, several edits add in their order. -/
theorem makeAll_withMissing {view : List Node → List String} {asked : Edit → List String}
    (hview : ∀ edit : Edit, edit.IsOrderly → ∀ nodes,
      view (edit.make nodes) = withMissing (view nodes) (asked edit))
    (hedits : ∀ edit ∈ edits, edit.IsOrderly) (nodes : List Node) :
    view (makeAll edits nodes) = withMissing (view nodes) (edits.flatMap asked) := by
  induction edits generalizing nodes with
  | nil => exact (withMissing_nil _).symm
  | cons edit edits ih =>
    obtain ⟨hedit, hedits⟩ := List.forall_mem_cons.mp hedits
    rw [List.flatMap_cons, withMissing_append, ← hview edit hedit nodes]
    exact ih hedits (edit.make nodes)

/-! ### What descriptions ask for -/

/-- The keys of a description that are followed, with their bodies: up to the first one that does
not fit. -/
def followed : Entries Value → Entries Value
  | [] => []
  | (key, body) :: rules =>
    (key, body) :: if (planKey key body).failure.isNone then followed rules else []

/-- The import that a key is. -/
def Key.import? : Key → Option String
  | .importSheet params => some params
  | _ => none

/-- The plugin that a key is, in double quotes. -/
def Key.plugin? : Key → Option String
  | .plugin params => some (Css.quotedPlugin params)
  | _ => none

/-- What the keys of a description name, as far as it is followed. -/
def requested (named? : Key → Option String) (rules : Entries Value) : List String :=
  (followed rules).filterMap fun rule => (Key.classify? rule.1 rule.2).bind named?

/-- **Edits ask for what keys name**: for imports, for plugins, or for nothing. -/
structure Agree (asked : Edit → List String) (named? : Key → Option String) : Prop where
  importSheet : ∀ params, asked (.importSheet params) = (named? (.importSheet params)).toList
  plugin : ∀ params, asked (.plugin params) = (named? (.plugin params)).toList
  common : ∀ edit : Edit, edit.IsCommon → asked edit = []
  other : ∀ kind, (∀ params, kind ≠ .importSheet params) → (∀ params, kind ≠ .plugin params) →
    named? kind = none

theorem agree_imports : Agree Edit.imports Key.import? where
  importSheet _ := rfl
  plugin _ := rfl
  common _ h := h.imports
  other kind himport _ := by
    cases kind with
    | importSheet params => exact absurd rfl (himport params)
    | _ => rfl

theorem agree_plugins : Agree Edit.plugins Key.plugin? where
  importSheet _ := rfl
  plugin _ := rfl
  common _ h := h.plugins
  other kind _ hplugin := by
    cases kind with
    | plugin params => exact absurd rfl (hplugin params)
    | _ => rfl

namespace Agree

variable {asked : Edit → List String} {named? : Key → Option String}

theorem planKey (h : Agree asked named?) (key : String) (body : Value) :
    (planKey key body).edits.flatMap asked =
      ((Key.classify? key body).bind named?).toList := by
  rcases planKey_cases key body with
    ⟨params, hkey, hplan⟩ | ⟨params, hkey, hplan⟩ | ⟨himport, hplugin, hcommon⟩
  · rw [hplan, hkey]
    exact (List.flatMap_singleton asked _).trans (h.importSheet params)
  · rw [hplan, hkey]
    exact (List.flatMap_singleton asked _).trans (h.plugin params)
  · have hnone : (Key.classify? key body).bind named? = none := by
      cases hkey : Key.classify? key body with
      | none => rfl
      | some kind =>
        exact h.other kind (fun params hkind => himport params (hkind ▸ hkey))
          fun params hkind => hplugin params (hkind ▸ hkey)
    rw [hnone, List.flatMap_eq_nil_iff.mpr fun edit hedit => h.common edit (hcommon edit hedit)]
    rfl

/-- What the edits of a description ask for, its keys name. -/
theorem planRules (h : Agree asked named?) (rules : Entries Value) :
    (planRules rules).edits.flatMap asked = requested named? rules := by
  induction rules with
  | nil => rfl
  | cons rule rules ih =>
    obtain ⟨key, body⟩ := rule
    rw [Merge.planRules, requested, followed, List.filterMap_cons, Plan.andThen]
    have hkey := h.planKey key body
    cases hfailure : (Merge.planKey key body).failure with
    | some failure => cases hnamed : (Key.classify? key body).bind named? <;> simp_all
    | none =>
      rw [requested] at ih
      cases hnamed : (Key.classify? key body).bind named? <;> simp_all

end Agree

/-! ### Several descriptions -/

/-- What every edit adds to a list unless it is there, descriptions add in their order. -/
theorem Agree.mergeEach {asked : Edit → List String} {named? : Key → Option String}
    (h : Agree asked named?) {view : List Node → List String}
    (hview : ∀ edit : Edit, edit.IsOrderly → ∀ nodes,
      view (edit.make nodes) = withMissing (view nodes) (asked edit))
    (descriptions : List (Entries Value)) (sheet : Sheet) :
    view (mergeEach descriptions sheet).nodes =
      withMissing (view sheet.nodes) (descriptions.flatMap (requested named?)) := by
  induction descriptions generalizing sheet with
  | nil => exact (withMissing_nil _).symm
  | cons rules descriptions ih =>
    have hrules : view (mergeRules rules sheet).1.nodes =
        withMissing (view sheet.nodes) (requested named? rules) := by
      rw [← h.planRules rules]
      exact makeAll_withMissing hview (isOrderly_planRules rules) sheet.nodes
    rw [List.flatMap_cons, withMissing_append, ← hrules]
    exact ih (mergeRules rules sheet).1

theorem importsLead_mergeEach {sheet : Sheet} (h : ImportsLead sheet.nodes)
    (descriptions : List (Entries Value)) : ImportsLead (mergeEach descriptions sheet).nodes := by
  induction descriptions generalizing sheet with
  | nil => exact h
  | cons rules descriptions ih => exact ih (importsLead_makeAll (isOrderly_planRules rules) h)

/-- **Imports stay in front and in order**, and plugins in order, with any rule descriptions merged
into a style sheet, whether or not they fit. What was missing follows in the order in which it was
first asked for. -/
theorem imports_mergeEach {sheet : Sheet} (h : ImportsLead sheet.nodes)
    (descriptions : List (Entries Value)) :
    ImportsLead (mergeEach descriptions sheet).nodes ∧
      paramsOf "import" (mergeEach descriptions sheet).nodes =
        withMissing (paramsOf "import" sheet.nodes)
          (descriptions.flatMap (requested Key.import?)) ∧
      pluginsOf (mergeEach descriptions sheet).nodes =
        withMissing (pluginsOf sheet.nodes) (descriptions.flatMap (requested Key.plugin?)) :=
  ⟨importsLead_mergeEach h descriptions,
    agree_imports.mergeEach (fun _ => Edit.imports_make) descriptions sheet,
    agree_plugins.mergeEach (fun _ => Edit.plugins_make) descriptions sheet⟩

theorem imports_mergeEach_midway :
    let sheet : Sheet :=
      { nodes := [.comment " base " {}, .statement "import" "\"base.css\"" {},
          .comment " theme " {}, .statement "import" "\"theme.css\"" {},
          .rule "body" [] {}, .statement "plugin" "'forms'" {}] }
    let first : Entries Value :=
      [(".card", .string "color: red"), ("@plugin icons", .object []),
        ("@import \"print.css\"", .object []), ("@plugin forms", .object []),
        ("@import \"base.css\"", .object [])]
    let second : Entries Value :=
      [("@import \"screen.css\"", .object []), (".card", .object [("margin", .null)]),
        ("@import \"late.css\"", .object [])]
    ImportsLead sheet.nodes ∧ (mergeRules second sheet).2 = some (.leaf ".card" "margin") ∧
      ImportsLead (mergeEach [first, second] sheet).nodes ∧
      paramsOf "import" (mergeEach [first, second] sheet).nodes =
        ["\"base.css\"", "\"theme.css\"", "\"print.css\"", "\"screen.css\""] ∧
      pluginsOf (mergeEach [first, second] sheet).nodes = ["\"forms\"", "\"icons\""] := by
  intro sheet first second
  have hfails : (mergeRules second sheet).2 = some (.leaf ".card" "margin") := by
    decide +kernel +revert
  have himports : withMissing (paramsOf "import" sheet.nodes)
      ([first, second].flatMap (requested Key.import?)) =
      ["\"base.css\"", "\"theme.css\"", "\"print.css\"", "\"screen.css\""] := by
    decide +kernel +revert
  have hplugins : withMissing (pluginsOf sheet.nodes)
      ([first, second].flatMap (requested Key.plugin?)) = ["\"forms\"", "\"icons\""] := by
    decide +kernel +revert
  have hlead : ImportsLead sheet.nodes := by
    simp [ImportsLead, Css.labels, sheet, Node.label?, Css.MayPrecede]
  obtain ⟨hleads, hparams, hquoted⟩ := imports_mergeEach hlead [first, second]
  exact ⟨hlead, hfails, hleads, hparams.trans himports, hquoted.trans hplugins⟩

end Restyle.Merge
