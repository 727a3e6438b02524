import Restyle.Json.Reader

/-!
# Taking JSON values apart

A configuration file is a JSON object with known members, each of an expected kind, among
members that are nobody's business. `Restyle.Json.member?` takes a known member out: it is
missing, there once and of its kind, or the object is refused – a known member that is
written twice says nothing reliable.

All decoders answer `none` for a value that does not fit; why it does not fit is not told.
-/

namespace Restyle.Json

/-- The decoded member `key`, or `absent` where there is none. A member that is repeated or
does not decode makes the object unusable. -/
def member? {α : Type} (members : List (String × Value)) (key : String) (absent : α)
    (decode : Value → Option α) : Option α :=
  match members.filter (·.1 = key) with
  | [] => some absent
  | [(_, value)] => decode value
  | _ => none

/-- A member that may be `null`. -/
def nullable {α : Type} (decode : Value → Option α) : Value → Option (Option α)
  | .null => some none
  | value => (decode value).map some

/-- An object whose members all decode, as entries in the order of the first mentions. -/
def entries? {α : Type} (decode : Value → Option α) (value : Value) : Option (Entries α) := do
  let members ← value.members?
  let writes ← members.mapM fun (key, value) => (decode value).map fun value => (key, value)
  pure (Entries.ofWrites writes)

/-- An object from names to strings. -/
def texts? (value : Value) : Option (Entries String) :=
  entries? Value.text? value

/-- An array whose items all decode. -/
def items? {α : Type} (decode : Value → Option α) : Value → Option (List α)
  | .array items => items.mapM decode
  | _ => none

end Restyle.Json
