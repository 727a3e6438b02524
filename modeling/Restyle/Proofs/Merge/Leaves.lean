import Restyle.Proofs.Merge.Fulfilment

/-!
# Where a rule description may not fit

Whether a rule description fits is no matter of the style sheet, and can be told from its **leaves**
(`Restyle.Merge.leaves`): the bodies that are written as a text, the members that are no objects,
and the keys that should name an at-rule. They are listed in the order in which merging comes to
them. Of a rule, all members that are no objects come before what is nested in it; of an at-rule, a
utility or a property, they come as they are written. What is under an import, under a plugin or
under an empty step of an animation is never looked at, so there are no leaves in it.

Each leaf fits or does not, all by itself (`Restyle.Merge.Leaf.failure?`). Merging fails with the
failure of the first leaf that does not, and succeeds if there is none, whatever it is merged into
(`Restyle.Merge.failure_mergeRules`).
-/

namespace Restyle.Merge

open Restyle.Css (Sheet)
open Restyle.Json (Value)

/-! ### Leaves -/

/-- What is looked at in a rule description. -/
inductive Leaf where
  /-- A body that is written as a text of declarations. -/
  | text (written : String)
  /-- A member that is no object, and so should be a string. -/
  | member (label property : String) (value : Value)
  /-- A key with an `@`, which should name an at-rule. -/
  | key (label name : String)
  /-- A body that is of no use where it is. -/
  | body (label : String)

/-- What is wrong with a leaf. -/
def Leaf.failure? : Leaf → Option Failure
  | .text written =>
    match Css.declarationsOfString written with
    | .ok _ => none
    | .error error => some (.style error)
  | .member label property value =>
    if value.text?.isSome then none else some (.leaf label property)
  | .key label name => if (atRuleOf? name).isSome then none else some (.leaf label name)
  | .body label => some (.leaf label "")

/-- The members of a rule that are no objects. -/
def memberLeaves (selector : String) (members : List (String × Value)) : List Leaf :=
  (members.filter (·.2.members?.isNone)).map fun member => .member selector member.1 member.2

mutual

/-- The leaves of a rule under a selector: those that it has itself come first. -/
def ruleLeaves (selector : String) : Value → List Leaf
  | .string text => [.text text]
  | .object members => memberLeaves selector members ++ nestedLeaves selector members
  | _ => [.body selector]

/-- The leaves of the objects among the members of a rule. -/
def nestedLeaves (selector : String) : List (String × Value) → List Leaf
  | [] => []
  | (key, value) :: members =>
    (match value with
      | .object _ =>
        match behindAt? key with
        | some rest => .key selector key ::
          match splitAtRule? rest with
          | some (name, params) => atRuleLeaves name params value
          | none => []
        | none => ruleLeaves (nestedSelector selector key) value
      | _ => []) ++ nestedLeaves selector members

/-- The leaves of an at-rule. -/
def atRuleLeaves (name params : String) : Value → List Leaf
  | .string text => [.text text]
  | .object members => atRuleMemberLeaves ("@" ++ name ++ " " ++ params) members
  | _ => [.body ("@" ++ name ++ " " ++ params)]

/-- The leaves of the members of an at-rule, in their order. A key with an `@` is that of an at-rule
whatever is under it. -/
def atRuleMemberLeaves (label : String) : List (String × Value) → List Leaf
  | [] => []
  | (key, value) :: members =>
    (match behindAt? key with
      | some rest => .key label key ::
        match splitAtRule? rest with
        | some (name, params) => atRuleLeaves name params value
        | none => []
      | none =>
        match value with
        | .object _ => ruleLeaves key value
        | _ => [.member label key value]) ++ atRuleMemberLeaves label members

end

/-- The leaves of a member of a utility or a property. A string is a declaration whatever its
key. -/
def blockMemberLeaves (label key : String) (value : Value) : List Leaf :=
  match value with
  | .object _ =>
    match behindAt? key with
    | some rest => .key label key ::
      match splitAtRule? rest with
      | some (name, params) => atRuleLeaves name params value
      | none => []
    | none => ruleLeaves key value
  | _ => [.member label key value]

/-- The leaves of a utility or a property, which is called as it is written. -/
def blockLeaves (label : String) : Value → List Leaf
  | .string text => [.text text]
  | .object members => members.flatMap fun (key, value) => blockMemberLeaves label key value
  | _ => [.body label]

/-- The leaves of a keyframe animation. Its empty steps are not looked at. -/
def keyframesLeaves (name : String) : Value → List Leaf
  | .object steps => (steps.filter fun (_, body) => !body.isEmptyObject).flatMap
      fun (step, body) => ruleLeaves step body
  | _ => [.body ("@keyframes " ++ name)]

/-- The leaves of one key of a rule description. -/
def keyLeaves (key : String) (body : Value) : List Leaf :=
  match Key.classify? key body with
  | none | some (.importSheet _) | some (.plugin _) | some (.bodyless _ _) => []
  | some (.selector text) => ruleLeaves text body
  | some (.keyframes name) => keyframesLeaves name body
  | some (.utility _) | some (.property _) => blockLeaves key body
  | some (.atRule name params) => atRuleLeaves name params body

/-- The leaves of a rule description, in the order in which merging comes to them. -/
def leaves (rules : Entries Value) : List Leaf :=
  rules.flatMap fun (key, body) => keyLeaves key body

/-! ### Plans that stop -/

/-- **A plan checks some leaves** if it stops at the first one that does not fit, and only there. -/
def Plan.Checks (plan : Plan) (leaves : List Leaf) : Prop :=
  plan.failure = leaves.findSome? Leaf.failure?

namespace Plan.Checks

variable {first second : Plan} {before behind : List Leaf} {leaf : Leaf} {failure : Failure}

theorem empty : Plan.Checks {} [] := rfl

theorem edit (edit : Edit) : (Plan.edit edit).Checks [] := rfl

/-- A leaf that fits makes no difference. -/
theorem cons (hleaf : leaf.failure? = none) (h : first.Checks behind) :
    first.Checks (leaf :: behind) := by
  rw [Plan.Checks, List.findSome?_cons, hleaf]
  exact h

/-- Behind a leaf that does not fit, nothing makes a difference. -/
theorem stop (hleaf : leaf.failure? = some failure) :
    (Plan.stop failure).Checks (leaf :: behind) := by
  rw [Plan.Checks, List.findSome?_cons, hleaf]
  rfl

theorem andThen (hfirst : first.Checks before) (hsecond : second.Checks behind) :
    (first.andThen second).Checks (before ++ behind) := by
  rw [Plan.Checks, List.findSome?_append, ← hfirst, ← hsecond, Plan.andThen]
  cases hfailure : first.failure with
  | some failure => exact hfailure
  | none => rfl

/-- Where a plan takes place is nothing to be checked. -/
theorem behindReach (path : Path) (h : second.Checks behind) :
    ((Plan.edit (.reach path)).andThen second).Checks behind :=
  (edit (.reach path)).andThen h

end Plan.Checks

/-! ### What is checked -/

theorem checks_planText (path : Path) (text : String) :
    (planText path text).Checks [.text text] := by
  rw [planText, Plan.Checks, List.findSome?_singleton, Leaf.failure?]
  cases Css.declarationsOfString text <;> rfl

theorem checks_planStrings (path : Path) (selector : String) (members : List (String × Value)) :
    (planStrings path selector members).Checks (memberLeaves selector members) := by
  induction members with
  | nil => exact .empty
  | cons member members ih =>
    obtain ⟨property, value⟩ := member
    cases value with
    | string text => exact ((Plan.Checks.edit _).cons rfl).andThen ih
    -- left to `planNested`, and not among these leaves
    | object => exact ih
    | _ => exact .stop rfl

/-- A plan behind a key with an `@`. -/
theorem checks_key {label key : String} {rest : List Char} (hkey : behindAt? key = some rest)
    {plan : String → String → Plan} {behind : String → String → List Leaf}
    (h : ∀ name params, (plan name params).Checks (behind name params)) :
    (match splitAtRule? rest with
      | some (name, params) => plan name params
      | none => .stop (.leaf label key)).Checks
      (.key label key ::
        match splitAtRule? rest with
        | some (name, params) => behind name params
        | none => []) := by
  have hnamed := atRuleOf?_eq hkey
  cases hrule : splitAtRule? rest with
  | none => exact .stop (by simp [Leaf.failure?, hnamed, hrule])
  | some atRule => exact (h atRule.1 atRule.2).cons (by simp [Leaf.failure?, hnamed, hrule])

mutual

theorem checks_planRule (path : Path) (selector : String) (withBreak : Bool) :
    ∀ body, (planRule path selector withBreak body).Checks (ruleLeaves selector body)
  | .string text => by
    rw [planRule, ruleLeaves]
    exact (checks_planText _ text).behindReach _
  | .object members => by
    rw [planRule, ruleLeaves]
    exact ((checks_planStrings _ selector members).behindReach _).andThen
      (checks_planNested path selector withBreak members)
  | .null | .bool _ | .number _ | .garbled | .array _ => by
    simpa only [planRule, ruleLeaves] using (Plan.Checks.stop rfl).behindReach _

theorem checks_planNested (path : Path) (selector : String) (withBreak : Bool) :
    ∀ members, (planNested path selector withBreak members).Checks (nestedLeaves selector members)
  | [] => .empty
  | (key, .object inner) :: members => by
    rw [planNested, nestedLeaves]
    refine Plan.Checks.andThen ?_ (checks_planNested path selector withBreak members)
    cases hkey : behindAt? key with
    | none => exact checks_planRule path (nestedSelector selector key) withBreak (.object inner)
    | some rest =>
      exact checks_key hkey fun name params =>
        (checks_planAtRule _ name params (.object inner)).behindReach _
  | (key, .null) :: members | (key, .bool _) :: members | (key, .number _) :: members
  | (key, .string _) :: members | (key, .garbled) :: members | (key, .array _) :: members => by
    simpa only [planNested, nestedLeaves] using
      Plan.Checks.empty.andThen (checks_planNested path selector withBreak members)

theorem checks_planAtRule (path : Path) (name params : String) :
    ∀ body, (planAtRule path name params body).Checks (atRuleLeaves name params body)
  | .string text => by
    rw [planAtRule, atRuleLeaves]
    exact (checks_planText _ text).behindReach _
  | .object [] => .edit _
  | .object (member :: members) => by
    rw [planAtRule, atRuleLeaves]
    exact (checks_planAtRuleMembers _ _ (member :: members)).behindReach _
  | .null | .bool _ | .number _ | .garbled | .array _ => by
    simpa only [planAtRule, atRuleLeaves] using (Plan.Checks.stop rfl).behindReach _

theorem checks_planAtRuleMembers (path : Path) (label : String) :
    ∀ members, (planAtRuleMembers path label members).Checks (atRuleMemberLeaves label members)
  | [] => .empty
  | (key, value) :: members => by
    rw [planAtRuleMembers.eq_def, atRuleMemberLeaves.eq_def]
    refine Plan.Checks.andThen ?_ (checks_planAtRuleMembers path label members)
    cases hkey : behindAt? key with
    | none =>
      cases value with
      | string text => exact (Plan.Checks.edit _).cons rfl
      | object inner => exact checks_planRule path key false (.object inner)
      | _ => exact .stop rfl
    | some rest => exact checks_key hkey fun name params => checks_planAtRule path name params value

end

theorem checks_planBlockMembers (path : Path) (label : String) (members : List (String × Value)) :
    (planBlockMembers path label members).Checks
      (members.flatMap fun (key, value) => blockMemberLeaves label key value) := by
  induction members with
  | nil => exact .empty
  | cons member members ih =>
    obtain ⟨key, value⟩ := member
    rw [planBlockMembers.eq_def, List.flatMap_cons]
    refine Plan.Checks.andThen ?_ ih
    cases value with
    | string text => exact (Plan.Checks.edit _).cons rfl
    | object inner =>
      dsimp only [blockMemberLeaves]
      cases hkey : behindAt? key with
      | none => exact checks_planRule path key false (.object inner)
      | some rest =>
        exact checks_key hkey fun name params => checks_planAtRule path name params (.object inner)
    | _ => exact .stop rfl

theorem checks_planBlock (name params key : String) (body : Value) :
    (planBlock name params key body).Checks (blockLeaves key body) := by
  rw [planBlock.eq_def]
  refine Plan.Checks.behindReach _ ?_
  cases body with
  | string text => exact checks_planText _ text
  | object members => exact checks_planBlockMembers _ key members
  | _ => exact .stop rfl

theorem checks_planSteps (path : Path) (steps : List (String × Value)) :
    (planSteps path steps).Checks ((steps.filter fun (_, body) => !body.isEmptyObject).flatMap
      fun (step, body) => ruleLeaves step body) := by
  induction steps with
  | nil => exact .empty
  | cons step steps ih =>
    obtain ⟨key, value⟩ := step
    rw [planSteps]
    by_cases hempty : value.isEmptyObject
    · rw [if_pos hempty, List.filter_cons_of_neg (by simp [hempty])]
      exact Plan.Checks.empty.andThen ih
    · rw [if_neg hempty, List.filter_cons_of_pos (by simp [hempty]), List.flatMap_cons]
      exact (checks_planRule path key false value).andThen ih

theorem checks_planKeyframes (name : String) (body : Value) :
    (planKeyframes name body).Checks (keyframesLeaves name body) := by
  cases body with
  | object steps => exact (checks_planSteps _ steps).behindReach _
  | _ => exact .stop rfl

theorem checks_planKey (key : String) (body : Value) :
    (planKey key body).Checks (keyLeaves key body) := by
  rw [planKey, keyLeaves]
  cases Key.classify? key body with
  | none => exact .empty
  | some asked =>
    cases asked with
    | selector text => exact checks_planRule [] text true body
    | importSheet params => exact .edit _
    | plugin params => exact .edit _
    | bodyless name params => exact .edit _
    | keyframes name => exact checks_planKeyframes name body
    | utility params => exact checks_planBlock "utility" params key body
    | property params => exact checks_planBlock "property" params key body
    | atRule name params => exact checks_planAtRule [] name params body

theorem checks_planRules (rules : Entries Value) : (planRules rules).Checks (leaves rules) := by
  induction rules with
  | nil => exact .empty
  | cons rule rules ih => exact (checks_planKey rule.1 rule.2).andThen ih

/-- **Whether rules can be merged is up to their description alone.** Into every style sheet,
merging fails with the failure of the first leaf that does not fit, and succeeds if there is
none. -/
theorem failure_mergeRules (rules : Entries Value) (sheet : Sheet) :
    (mergeRules rules sheet).2 = (leaves rules).findSome? Leaf.failure? :=
  checks_planRules rules

example : (leaves [(".card", .object
    [("&:hover", .object [("color", .null)]), ("width", .bool true)])]).findSome? Leaf.failure? =
      some (.leaf ".card" "width") := by decide +kernel

end Restyle.Merge
