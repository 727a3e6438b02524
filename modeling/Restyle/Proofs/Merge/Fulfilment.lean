import Restyle.Proofs.Merge.Replay

/-!
# What a rule description demands

What a rule description asks for can be said without a plan, and without a style sheet: it is
a list of **demands** (`Restyle.Merge.demands`), in the order in which the description makes
them. A demand is a value of a property at a path, an at-rule at a path, or a plugin.

The paths follow the keys. A rule of a rule stands beside it, under the selector that it stands
for; an at-rule of a rule, and anything of an at-rule, stands inside. The declarations of a rule
come before what is nested in it, whatever the order of its members. Keyframes stand in the
inline theme, and their empty steps demand nothing.

A style sheet **fulfils** demands (`Restyle.Merge.Fulfils`) if all of them are there – of
several values of one property at one path, the last one. A rule description that fits is
fulfilled by the style sheet it is merged into (`Restyle.Merge.fulfils_mergeRules`): a plan that
does not stop consists of the demands, and of edits that only make way for them
(`Restyle.Merge.Plan.Serves`).
-/

namespace Restyle.Merge

open Restyle.Css (Node Place Sheet containerAt? valueAt?)
open Restyle.Json (Value)

/-! ### Demands -/

/-- What a rule description can ask for. -/
inductive Demand where
  /-- A property of the container at a path has a value. -/
  | value (path : List Place) (property value : String)
  /-- There is an at-rule in the container at a path. -/
  | atRule (path : List Place) (name params : String)
  | plugin (params : String)
  deriving DecidableEq

/-- The at-rule that a key stands for. -/
def atRuleOf? (key : String) : Option (String × String) :=
  (behindAt? key).bind splitAtRule?

/-- A body that is written as a text demands its declarations. -/
def textDemands (path : List Place) (text : String) : List Demand :=
  match Css.declarationsOfString text with
  | .ok declarations => declarations.map fun (property, value) => .value path property value
  | .error _ => []

/-- A rule demands the strings among its members first. -/
def stringDemands (path : List Place) (members : List (String × Value)) : List Demand :=
  members.filterMap fun (property, value) => value.text?.map (.value path property ·)

mutual

/-- The demands of a rule under a selector, `around` being the containers around it. -/
def ruleDemands (around : List Place) (selector : String) : Value → List Demand
  | .string text => textDemands (around ++ [.rule selector]) text
  | .object members =>
    stringDemands (around ++ [.rule selector]) members ++ nestedDemands around selector members
  | _ => []

/-- The demands of the objects among the members of a rule: at-rules inside it, and rules beside
it. -/
def nestedDemands (around : List Place) (selector : String) : List (String × Value) → List Demand
  | [] => []
  | (key, value) :: members =>
    (match value with
      | .object _ =>
        match atRuleOf? key with
        | some (name, params) => atRuleDemands (around ++ [.rule selector]) name params value
        | none => ruleDemands around (nestedSelector selector key) value
      | _ => []) ++ nestedDemands around selector members

/-- The demands of an at-rule. One with an empty object under it is all that it demands. -/
def atRuleDemands (around : List Place) (name params : String) : Value → List Demand
  | .string text => textDemands (around ++ [.atRule name params]) text
  | .object [] => [.atRule around name params]
  | .object (member :: members) =>
    atRuleMemberDemands (around ++ [.atRule name params]) (member :: members)
  | _ => []

/-- The demands of the members of an at-rule, all of them inside it. -/
def atRuleMemberDemands (path : List Place) : List (String × Value) → List Demand
  | [] => []
  | (key, value) :: members =>
    (match atRuleOf? key with
      | some (name, params) => atRuleDemands path name params value
      | none =>
        match value with
        | .string text => [.value path key text]
        | _ => ruleDemands path key value) ++ atRuleMemberDemands path members

end

/-- The demands of the members of a utility or a property. A string is a declaration whatever
its key, and a nested key is a selector as it stands. -/
def blockDemands (path : List Place) (members : List (String × Value)) : List Demand :=
  members.flatMap fun (key, value) =>
    match value with
    | .string text => [.value path key text]
    | _ =>
      match atRuleOf? key with
      | some (name, params) => atRuleDemands path name params value
      | none => ruleDemands path key value

/-- The demands of a utility or a property. -/
def bodyDemands (path : List Place) : Value → List Demand
  | .string text => textDemands path text
  | .object members => blockDemands path members
  | _ => []

/-- The demands of a keyframe animation: its steps are rules, the empty ones left out. -/
def keyframesDemands (name : String) : Value → List Demand
  | .object steps => (steps.filter fun (_, body) => !body.isEmptyObject).flatMap
      fun (step, body) => ruleDemands [.atRule "theme" "inline", .atRule "keyframes" name] step body
  | _ => []

/-- The demands of one key of a rule description. -/
def keyDemands (key : String) (body : Value) : List Demand :=
  match Key.classify? key body with
  | none => []
  | some (.selector text) => ruleDemands [] text body
  | some (.importSheet params) => [.atRule [] "import" params]
  | some (.plugin params) => [.plugin params]
  | some (.bodyless name params) => [.atRule [] name params]
  | some (.keyframes name) => keyframesDemands name body
  | some (.utility params) => bodyDemands [.atRule "utility" params] body
  | some (.property params) => bodyDemands [.atRule "property" params] body
  | some (.atRule name params) => atRuleDemands [] name params body

/-- **The demands of a rule description**, key by key. -/
def demands (rules : Entries Value) : List Demand :=
  rules.flatMap fun (key, body) => keyDemands key body

/-- The value that the last of some demands asks of a property at a path. -/
def lastDemanded? (path : List Place) (property : String) : List Demand → Option String
  | [] => none
  | demand :: demands => (lastDemanded? path property demands).or
    (match demand with
      | .value other name value => if other = path ∧ name = property then some value else none
      | _ => none)

/-- **All demands are there.** A path leads to the first container at each of its places, and a
property has the value of its first declaration there. -/
structure Fulfils (demands : List Demand) (nodes : List Node) : Prop where
  value : ∀ {path property value}, lastDemanded? path property demands = some value →
    valueAt? path property nodes = some value
  atRule : ∀ {path name params}, .atRule path name params ∈ demands →
    ∃ inner, containerAt? path nodes = some inner ∧ inner.any (Place.atRule name params).isAt
  plugin : ∀ {params}, .plugin params ∈ demands →
    nodes.any (Node.loadsPlugin (Css.quotedPlugin params))

/-! ### Plans and demands -/

/-- The demand that an edit meets. Places are made on the way to others only. -/
def Edit.demand? : Edit → Option Demand
  | .reach _ => none
  | .declare path property value => some (.value path.places property value)
  | .state path name params _ => some (.atRule path.places name params)
  | .importSheet params => some (.atRule [] "import" params)
  | .plugin params => some (.plugin params)

/-- **A plan serves demands** if its edits meet them one by one, unless it stops. -/
def Plan.Serves (plan : Plan) (demands : List Demand) : Prop :=
  plan.failure = none → plan.edits.filterMap Edit.demand? = demands

namespace Plan.Serves

variable {first second : Plan} {demands more : List Demand}

theorem empty : Plan.Serves {} [] := fun _ => rfl

theorem stop (failure : Failure) (demands : List Demand) : (Plan.stop failure).Serves demands :=
  nofun

theorem reach (path : Path) : (Plan.edit (.reach path)).Serves [] := fun _ => rfl

theorem edit (edit : Edit) {demand : Demand} (h : edit.demand? = some demand) :
    (Plan.edit edit).Serves [demand] := by
  intro _
  simp [Plan.edit, h]

theorem andThen (hfirst : first.Serves demands) (hsecond : second.Serves more) :
    (first.andThen second).Serves (demands ++ more) := by
  rw [Plan.andThen]
  cases hfailure : first.failure with
  | some failure =>
    intro h
    exact absurd (hfailure.symm.trans h) (by simp)
  | none =>
    intro h
    rw [List.filterMap_append, hfirst hfailure, hsecond h]

/-- Making way for demands. -/
theorem behindReach (path : Path) (h : second.Serves demands) :
    ((Plan.edit (.reach path)).andThen second).Serves demands := by
  simpa using (reach path).andThen h

end Plan.Serves

theorem places_below (path : Path) (place : Place) (withBreak : Bool) :
    (below path place withBreak).places = path.places ++ [place] := by
  simp [below, Path.places]

theorem atRuleOf?_eq {key : String} {rest : List Char} (h : behindAt? key = some rest) :
    atRuleOf? key = splitAtRule? rest := by
  rw [atRuleOf?, h, Option.bind_some]

theorem atRuleOf?_eq_none {key : String} (h : behindAt? key = none) : atRuleOf? key = none := by
  rw [atRuleOf?, h, Option.bind_none]

theorem serves_planText (path : Path) (text : String) :
    (planText path text).Serves (textDemands path.places text) := by
  rw [planText, textDemands]
  cases Css.declarationsOfString text with
  | error error => exact .stop _ _
  | ok declarations =>
    intro _
    simp [List.filterMap_map, Function.comp_def, Edit.demand?]

theorem serves_planStrings (path : Path) (selector : String) (members : List (String × Value)) :
    (planStrings path selector members).Serves (stringDemands path.places members) := by
  induction members with
  | nil => exact .empty
  | cons member members ih =>
    obtain ⟨property, value⟩ := member
    cases value with
    | string text => exact (Plan.Serves.edit (.declare path property text) rfl).andThen ih
    | object => exact ih
    | _ => exact .stop _ _

/-- A body that is neither a text nor an object. -/
theorem serves_reach_stop (path : Path) (failure : Failure) (demands : List Demand) :
    ((Plan.edit (.reach path)).andThen (.stop failure)).Serves demands :=
  (Plan.Serves.stop _ _).behindReach _

mutual

theorem serves_planRule (path : Path) (selector : String) (withBreak : Bool) :
    ∀ body, (planRule path selector withBreak body).Serves (ruleDemands path.places selector body)
  | .string text => by
    rw [planRule, ruleDemands, ← places_below path (.rule selector) withBreak]
    exact (serves_planText _ text).behindReach _
  | .object members => by
    rw [planRule, ruleDemands, ← places_below path (.rule selector) withBreak]
    exact ((serves_planStrings _ selector members).behindReach _).andThen
      (serves_planNested path selector withBreak members)
  | .null | .bool _ | .number _ | .garbled | .array _ => by
    simpa only [planRule] using serves_reach_stop _ _ _

theorem serves_planNested (path : Path) (selector : String) (withBreak : Bool) :
    ∀ members, (planNested path selector withBreak members).Serves
      (nestedDemands path.places selector members)
  | [] => .empty
  | (key, .object inner) :: members => by
    rw [planNested, nestedDemands]
    refine Plan.Serves.andThen ?_ (serves_planNested path selector withBreak members)
    cases hkey : behindAt? key with
    | none =>
      simp only [atRuleOf?_eq_none hkey]
      exact serves_planRule path (nestedSelector selector key) withBreak (.object inner)
    | some rest =>
      simp only [atRuleOf?_eq hkey]
      cases splitAtRule? rest with
      | none => exact .stop _ _
      | some atRule =>
        rw [← places_below path (.rule selector) withBreak]
        exact (serves_planAtRule _ atRule.1 atRule.2 (.object inner)).behindReach _
  | (key, .null) :: members | (key, .bool _) :: members | (key, .number _) :: members
  | (key, .string _) :: members | (key, .garbled) :: members | (key, .array _) :: members => by
    simpa only [planNested, nestedDemands] using
      Plan.Serves.empty.andThen (serves_planNested path selector withBreak members)

theorem serves_planAtRule (path : Path) (name params : String) :
    ∀ body, (planAtRule path name params body).Serves (atRuleDemands path.places name params body)
  | .string text => by
    rw [planAtRule, atRuleDemands, ← places_below path (.atRule name params) true]
    exact (serves_planText _ text).behindReach _
  | .object [] => .edit _ rfl
  | .object (member :: members) => by
    rw [planAtRule, atRuleDemands, ← places_below path (.atRule name params) true]
    exact (serves_planAtRuleMembers _ _ (member :: members)).behindReach _
  | .null | .bool _ | .number _ | .garbled | .array _ => by
    simpa only [planAtRule] using serves_reach_stop _ _ _

theorem serves_planAtRuleMembers (path : Path) (label : String) :
    ∀ members, (planAtRuleMembers path label members).Serves
      (atRuleMemberDemands path.places members)
  | [] => .empty
  | (key, value) :: members => by
    rw [planAtRuleMembers.eq_def, atRuleMemberDemands.eq_def]
    refine Plan.Serves.andThen ?_ (serves_planAtRuleMembers path label members)
    cases hkey : behindAt? key with
    | none =>
      simp only [atRuleOf?_eq_none hkey]
      cases value with
      | string text => exact .edit (.declare path key text) rfl
      | object inner => exact serves_planRule path key false (.object inner)
      | _ => exact .stop _ _
    | some rest =>
      simp only [atRuleOf?_eq hkey]
      cases splitAtRule? rest with
      | none => exact .stop _ _
      | some atRule => exact serves_planAtRule path atRule.1 atRule.2 value

end

theorem serves_planBlockMembers (path : Path) (label : String) (members : List (String × Value)) :
    (planBlockMembers path label members).Serves (blockDemands path.places members) := by
  induction members with
  | nil => exact .empty
  | cons member members ih =>
    obtain ⟨key, value⟩ := member
    rw [planBlockMembers.eq_def, blockDemands, List.flatMap_cons]
    refine Plan.Serves.andThen ?_ ih
    cases value with
    | string text => exact .edit (.declare path key text) rfl
    | object inner =>
      cases hkey : behindAt? key with
      | none =>
        simp only [atRuleOf?_eq_none hkey]
        exact serves_planRule path key false (.object inner)
      | some rest =>
        simp only [atRuleOf?_eq hkey]
        cases splitAtRule? rest with
        | none => exact .stop _ _
        | some atRule => exact serves_planAtRule path atRule.1 atRule.2 (.object inner)
    | _ => exact .stop _ _

theorem serves_planBlock (name params key : String) (body : Value) :
    (planBlock name params key body).Serves (bodyDemands [.atRule name params] body) := by
  rw [planBlock.eq_def]
  refine Plan.Serves.behindReach _ ?_
  cases body with
  | string text => exact serves_planText _ text
  | object members => exact serves_planBlockMembers _ key members
  | _ => exact .stop _ _

theorem serves_planSteps (path : Path) (steps : List (String × Value)) :
    (planSteps path steps).Serves ((steps.filter fun (_, body) => !body.isEmptyObject).flatMap
      fun (step, body) => ruleDemands path.places step body) := by
  induction steps with
  | nil => exact .empty
  | cons step steps ih =>
    obtain ⟨key, value⟩ := step
    rw [planSteps]
    cases hempty : value.isEmptyObject with
    | true => simpa [hempty] using Plan.Serves.empty.andThen ih
    | false => simpa [hempty] using (serves_planRule path key false value).andThen ih

theorem serves_planKeyframes (name : String) (body : Value) :
    (planKeyframes name body).Serves (keyframesDemands name body) := by
  cases body with
  | object steps => exact (serves_planSteps _ steps).behindReach _
  | _ => exact .stop _ _

theorem serves_planKey (key : String) (body : Value) :
    (planKey key body).Serves (keyDemands key body) := by
  rw [planKey, keyDemands]
  cases Key.classify? key body with
  | none => exact .empty
  | some kind =>
    cases kind with
    | selector text => exact serves_planRule [] text true body
    | importSheet params => exact .edit _ rfl
    | plugin params => exact .edit _ rfl
    | bodyless name params => exact .edit _ rfl
    | keyframes name => exact serves_planKeyframes name body
    | utility params => exact serves_planBlock "utility" params key body
    | property params => exact serves_planBlock "property" params key body
    | atRule name params => exact serves_planAtRule [] name params body

/-- **The plan of a rule description serves its demands.** -/
theorem serves_planRules (rules : Entries Value) : (planRules rules).Serves (demands rules) := by
  induction rules with
  | nil => exact .empty
  | cons rule rules ih => exact (serves_planKey rule.1 rule.2).andThen ih

/-! ### Demands that are met -/

theorem lastDemanded?_filterMap (path : List Place) (property : String) (edits : List Edit) :
    lastDemanded? path property (edits.filterMap Edit.demand?) =
      lastWritten? path property edits := by
  induction edits with
  | nil => rfl
  | cons edit edits ih =>
    rw [lastWritten?, ← ih]
    cases edit <;> simp [Edit.demand?, Edit.written?, lastDemanded?, List.filterMap_cons]

/-- **Edits meet their demands.** -/
theorem fulfils_makeAll (edits : List Edit) (nodes : List Node) :
    Fulfils (edits.filterMap Edit.demand?) (makeAll edits nodes) where
  value h := valueAt?_makeAll (by rwa [lastDemanded?_filterMap] at h) nodes
  atRule h := by
    obtain ⟨edit, hedit, hdemand⟩ := List.mem_filterMap.mp h
    have hholds := holds_makeAll hedit nodes
    cases edit with
    | state path name params withBreak =>
      cases hdemand
      exact hholds
    | importSheet params =>
      cases hdemand
      exact ⟨_, rfl, hholds⟩
    | _ => simp [Edit.demand?] at hdemand
  plugin h := by
    obtain ⟨edit, hedit, hdemand⟩ := List.mem_filterMap.mp h
    have hholds := holds_makeAll hedit nodes
    cases edit with
    | plugin params =>
      cases hdemand
      exact hholds
    | _ => simp [Edit.demand?] at hdemand

/-- **A rule description that fits is fulfilled by the style sheet it is merged into**, whatever
was there. -/
theorem fulfils_mergeRules {rules : Entries Value} {sheet : Sheet}
    (h : (mergeRules rules sheet).2 = none) :
    Fulfils (demands rules) (mergeRules rules sheet).1.nodes := by
  rw [← serves_planRules rules h]
  exact fulfils_makeAll (planRules rules).edits sheet.nodes

theorem fulfils_mergeRules_card :
    let rules : Entries Value :=
      [("@plugin typography", .object []), ("@layer base", .object [(".card", .object
        [("&:hover", .object [("color", .string "blue")]), ("color", .string "red"),
          ("@media print", .object [("color", .string "black")])])]),
        ("@keyframes spin", .object [("from", .object []), ("to", .string "rotate: 1turn")])]
    let sheet : Sheet := { nodes := [.rule ".card" [.declaration "color" "green" {}] {}] }
    let card : List Place := [.atRule "layer" "base", .rule ".card"]
    demands rules =
        [.plugin "typography", .value card "color" "red",
          .value [.atRule "layer" "base", .rule ".card:hover"] "color" "blue",
          .value (card ++ [.atRule "media" "print"]) "color" "black",
          .value [.atRule "theme" "inline", .atRule "keyframes" "spin", .rule "to"]
            "rotate" "1turn"] ∧
      (mergeRules rules sheet).2 = none ∧
      Fulfils (demands rules) (mergeRules rules sheet).1.nodes := by
  intro rules sheet card
  have hsucceeds : (mergeRules rules sheet).2 = none := by decide +kernel
  exact ⟨by decide +kernel, hsucceeds, fulfils_mergeRules hsucceeds⟩

end Restyle.Merge
