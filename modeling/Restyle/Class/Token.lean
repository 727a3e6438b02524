import Restyle.Text.Blank

/-!
# Classes

A class is written `variant:utility/opacity`. In `dark:hover:bg-muted/50` the chain of
variants is `dark:hover`, the utility is `bg-muted` and the opacity is `50`. Only the
utility says what the class does; every transformation of this library replaces it and
leaves the rest in place.

Variants and utilities may hold text of their own in brackets, as in
`[&_svg:not(.x)]:size-4` or `bg-[url(a/b.png)]`, so a cut is made at **top level** only:
`Restyle.Class.nextDepth` counts the brackets that are open, and
`Restyle.Class.cutLast?` cuts at the last occurrence of a character where none is.
`Restyle.Class.Token.ofString` cuts off the opacity first and the variants from what is
left; `Restyle.Class.Token.render` puts the three parts back together.
-/

namespace Restyle.Class

/-- The number of brackets open after one more character. Square and round brackets count
alike, and a closing bracket too many does not count. -/
def nextDepth (depth : Nat) (c : Char) : Nat :=
  if c = '[' ∨ c = '(' then depth + 1
  else if c = ']' ∨ c = ')' then depth - 1
  else depth

/-- The text before and after the last occurrence of `mark` outside all brackets, `depth`
brackets being open at the start. -/
def cutLast? (mark : Char) : Nat → List Char → Option (List Char × List Char)
  | _, [] => none
  | depth, c :: rest =>
    match cutLast? mark (nextDepth depth c) rest with
    | some (before, after) => some (c :: before, after)
    | none => if c = mark ∧ depth = 0 then some ([], rest) else none

/-- A class in its three parts. -/
structure Token where
  /-- The chain of variants, without the colon behind it. -/
  variant : Option String := none
  /-- What the class does. -/
  utility : String
  /-- The opacity, without the slash in front of it. -/
  opacity : Option String := none
  deriving DecidableEq, Repr

namespace Token

/-- A class cut at its last slash and then at its last colon, both at top level. -/
def ofString (text : String) : Token :=
  let (rest, opacity) := match cutLast? '/' 0 text.toList with
    | some (before, after) => (before, some (String.ofList after))
    | none => (text.toList, none)
  match cutLast? ':' 0 rest with
  | some (before, after) => ⟨some (String.ofList before), String.ofList after, opacity⟩
  | none => ⟨none, String.ofList rest, opacity⟩

/-- A class as it is written. -/
def render (token : Token) : String :=
  (match token.variant with | some variant => variant ++ ":" | none => "") ++
    token.utility ++
    (match token.opacity with | some opacity => "/" ++ opacity | none => "")

/-- Another utility under the same variants and with the same opacity. -/
def withUtility (token : Token) (utility : String) : Token :=
  { token with utility := utility }

/-- One more variant, outside the ones that are there. -/
def withOuterVariant (token : Token) (variant : String) : Token :=
  { token with variant := some (match token.variant with
      | some inner => variant ++ ":" ++ inner
      | none => variant) }

end Token

end Restyle.Class
