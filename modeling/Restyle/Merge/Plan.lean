import Restyle.Css.Edit
import Restyle.Failure
import Restyle.Merge.Key
import Restyle.Merge.Nested

/-!
# Plans

A rule description is merged in two steps. First it is turned, on its own and whatever the
style sheet, into a **plan**: a list of edits, each saying where it takes place. Then the
edits are made, one after the other.

Where an edit takes place is a path of places from the style sheet inwards
(`Restyle.Merge.Step`). A path is followed by first match, and what is missing on it is made.
So `Restyle.Merge.Edit.declare` at `@layer base` and `.card` is a declaration in the first
rule `.card` of the first `@layer base`, whether these were there before or not.

A description that turns out not to fit stops the plan where that shows; the edits planned
until then are made all the same.
-/

namespace Restyle.Merge

open Restyle.Css (Place)
open Restyle.Json (Value)

/-- One place of a path, and whether a blank line sets it off when it has to be made. -/
structure Step where
  place : Place
  withBreak : Bool
  deriving DecidableEq, Repr

/-- The places from the style sheet inwards. -/
abbrev Path := List Step

/-- One more place at the end of a path. -/
def below (path : Path) (place : Place) (withBreak : Bool) : Path :=
  path ++ [⟨place, withBreak⟩]

/-- One change of a style sheet. -/
inductive Edit where
  /-- There has to be something at a path. -/
  | reach (path : Path)
  /-- A property takes a value. -/
  | declare (path : Path) (property value : String)
  /-- There has to be an at-rule, one without a body if it has to be made. -/
  | state (path : Path) (name params : String) (withBreak : Bool)
  | importSheet (params : String)
  | plugin (params : String)
  deriving DecidableEq, Repr

/-- A list of edits, and why there are no more of them if it should be longer. -/
structure Plan where
  edits : List Edit := []
  failure : Option Failure := none

namespace Plan

/-- The plan of one edit. -/
def edit (edit : Edit) : Plan := { edits := [edit] }

/-- The plan that stops. -/
def stop (failure : Failure) : Plan := { failure := some failure }

/-- One plan after another; where the first stops, the second is not begun. -/
def andThen (first second : Plan) : Plan :=
  match first.failure with
  | some _ => first
  | none => { edits := first.edits ++ second.edits, failure := second.failure }

end Plan

/-! ### Making a plan -/

/-- The plan of a body that is written as a text of declarations. -/
def planText (path : Path) (text : String) : Plan :=
  match Css.declarationsOfString text with
  | .ok declarations =>
    { edits := declarations.map fun (property, value) => .declare path property value }
  | .error error => .stop (.style error)

/-- The plan of the strings among the members of a rule. What is neither a string nor an
object stops it. -/
def planStrings (path : Path) (selector : String) : List (String × Value) → Plan
  | [] => {}
  | (property, value) :: members =>
    match value with
    | .string text =>
      (Plan.edit (.declare path property text)).andThen (planStrings path selector members)
    | .object _ => planStrings path selector members
    | _ => .stop (.leaf selector property)

/-- How an at-rule is called in a message. -/
def atRuleLabel (name params : String) : String :=
  "@" ++ name ++ " " ++ params

mutual

/-- The plan of a rule under a selector. Its own declarations come first. The objects among
its members are rules beside it, by the selectors that they stand for, and at-rules inside
it. -/
def planRule (path : Path) (selector : String) (withBreak : Bool) : Value → Plan
  | .string text =>
    let inner := below path (.rule selector) withBreak
    (Plan.edit (.reach inner)).andThen (planText inner text)
  | .object members =>
    let inner := below path (.rule selector) withBreak
    ((Plan.edit (.reach inner)).andThen (planStrings inner selector members)).andThen
      (planNested path selector withBreak members)
  | _ =>
    let inner := below path (.rule selector) withBreak
    (Plan.edit (.reach inner)).andThen (.stop (.leaf selector ""))

/-- The plan of the objects among the members of a rule. -/
def planNested (path : Path) (selector : String) (withBreak : Bool) :
    List (String × Value) → Plan
  | [] => {}
  | (key, value) :: members =>
    let here := match value with
      | .object _ =>
        match behindAt? key with
        | some rest =>
          match splitAtRule? rest with
          | some (name, params) =>
            let inner := below path (.rule selector) withBreak
            (Plan.edit (.reach inner)).andThen (planAtRule inner name params value)
          | none => .stop (.leaf selector key)
        | none => planRule path (nestedSelector selector key) withBreak value
      | _ => {}
    here.andThen (planNested path selector withBreak members)

/-- The plan of an at-rule. An empty object asks for one without a body. -/
def planAtRule (path : Path) (name params : String) : Value → Plan
  | .string text =>
    let inner := below path (.atRule name params) true
    (Plan.edit (.reach inner)).andThen (planText inner text)
  | .object [] => .edit (.state path name params false)
  | .object (member :: members) =>
    let inner := below path (.atRule name params) true
    (Plan.edit (.reach inner)).andThen
      (planAtRuleMembers inner (atRuleLabel name params) (member :: members))
  | _ =>
    let inner := below path (.atRule name params) true
    (Plan.edit (.reach inner)).andThen (.stop (.leaf (atRuleLabel name params) ""))

/-- The plan of the members of an at-rule, in their order: at-rules, declarations, and
rules for the objects. -/
def planAtRuleMembers (path : Path) (label : String) : List (String × Value) → Plan
  | [] => {}
  | (key, value) :: members =>
    let here := match behindAt? key with
      | some rest =>
        match splitAtRule? rest with
        | some (name, params) => planAtRule path name params value
        | none => .stop (.leaf label key)
      | none =>
        match value with
        | .string text => .edit (.declare path key text)
        | .object _ => planRule path key false value
        | _ => .stop (.leaf label key)
    here.andThen (planAtRuleMembers path label members)

end

/-- The plan of the members of a utility or a property, in their order. A string is a
declaration whatever its key. -/
def planBlockMembers (path : Path) (label : String) : List (String × Value) → Plan
  | [] => {}
  | (key, value) :: members =>
    let here := match value with
      | .string text => Plan.edit (.declare path key text)
      | .object _ =>
        match behindAt? key with
        | some rest =>
          match splitAtRule? rest with
          | some (name, params) => planAtRule path name params value
          | none => .stop (.leaf label key)
        | none => planRule path key false value
      | _ => .stop (.leaf label key)
    here.andThen (planBlockMembers path label members)

/-- The plan of a utility or a property, `key` being how it was written. -/
def planBlock (name params key : String) (body : Value) : Plan :=
  let path : Path := [⟨.atRule name params, true⟩]
  (Plan.edit (.reach path)).andThen
    (match body with
      | .string text => planText path text
      | .object members => planBlockMembers path key members
      | _ => .stop (.leaf key ""))

/-- The plan of the steps of a keyframe animation. A step without declarations is
skipped. -/
def planSteps (path : Path) : List (String × Value) → Plan
  | [] => {}
  | (key, value) :: steps =>
    (if value.isEmptyObject then {} else planRule path key false value).andThen
      (planSteps path steps)

/-- The plan of a keyframe animation, which lives in the inline theme. -/
def planKeyframes (name : String) : Value → Plan
  | .object steps =>
    let path : Path := [⟨.atRule "theme" "inline", true⟩, ⟨.atRule "keyframes" name, false⟩]
    (Plan.edit (.reach path)).andThen (planSteps path steps)
  | _ => .stop (.leaf ("@keyframes " ++ name) "")

/-- The plan of one key of a rule description. -/
def planKey (key : String) (body : Value) : Plan :=
  match Key.classify? key body with
  | none => {}
  | some (.selector text) => planRule [] text true body
  | some (.importSheet params) => .edit (.importSheet params)
  | some (.plugin params) => .edit (.plugin params)
  | some (.bodyless name params) => .edit (.state [] name params true)
  | some (.keyframes name) => planKeyframes name body
  | some (.utility params) => planBlock "utility" params key body
  | some (.property params) => planBlock "property" params key body
  | some (.atRule name params) => planAtRule [] name params body

/-- The plan of a rule description, key by key. -/
def planRules : Entries Value → Plan
  | [] => {}
  | (key, body) :: rules => (planKey key body).andThen (planRules rules)

end Restyle.Merge
