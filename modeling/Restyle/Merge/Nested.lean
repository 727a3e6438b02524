import Restyle.Text.Search

/-!
# Nested selectors

Under a selector, a key that starts with `&` goes on with that selector: `&:hover` under
`.card` is `.card:hover`. What follows the `&` is put in front of the selector's first colon,
where its pseudo-classes start; a colon at the very start does not count. Any other key is
a selector of its own.
-/

namespace Restyle.Merge

/-- A piece of text put in front of the first colon, or at the end. -/
def insertBeforeColon (piece : List Char) : List Char → List Char
  | [] => piece
  | c :: rest => if c = ':' then piece ++ c :: rest else c :: insertBeforeColon piece rest

/-- The selector that a key under a selector stands for. -/
def nestedSelector (parent nested : String) : String :=
  match nested.toList with
  | '&' :: suffix =>
    match parent.toList with
    | [] => String.ofList suffix
    | first :: rest => String.ofList (first :: insertBeforeColon suffix rest)
  | _ => nested

end Restyle.Merge
