import Restyle.Json.Value
import Restyle.Text.Blank

/-!
# Keys of a rule description

A rule description is an object from keys to bodies. What a key asks for shows in how it is
written: a selector, or an at-rule by name and parameters. Imports, plugins, keyframes,
utilities and properties have ways of their own to be merged; any other at-rule with an
empty object under it is one without a body.
-/

namespace Restyle.Merge

/-- What a key of a rule description asks for. -/
inductive Key where
  /-- A rule. -/
  | selector (text : String)
  | importSheet (params : String)
  | plugin (params : String)
  /-- An at-rule without a body. -/
  | bodyless (name params : String)
  | keyframes (name : String)
  | utility (params : String)
  | property (params : String)
  /-- Any other at-rule. -/
  | atRule (name params : String)
  deriving DecidableEq, Repr

/-- The characters of the name of an at-rule. -/
def isAtRuleChar (c : Char) : Bool :=
  c.isAlpha || c.isDigit || c == '-' || c == '_'

/-- The name and the parameters of an at-rule, written without its `@`. -/
def splitAtRule? (text : List Char) : Option (String × String) :=
  let name := text.takeWhile isAtRuleChar
  if name.isEmpty then none
  else some (String.ofList name, String.ofList (Text.trim (text.dropWhile isAtRuleChar)))

/-- What follows the `@` of a key that starts with one. -/
def behindAt? (key : String) : Option (List Char) :=
  match key.toList with
  | '@' :: rest => some rest
  | _ => none

/-- What a key asks for, given the body under it. A key with `@` but no name asks for
nothing. -/
def Key.classify? (key : String) (body : Json.Value) : Option Key :=
  match behindAt? key with
  | none => some (.selector key)
  | some rest => (splitAtRule? rest).map fun (name, params) =>
    if name = "import" then .importSheet params
    else if name = "plugin" then .plugin params
    else if name = "keyframes" then .keyframes params
    else if name = "utility" then .utility params
    else if name = "property" then .property params
    else if body.isEmptyObject then .bodyless name params
    else .atRule name params

end Restyle.Merge
