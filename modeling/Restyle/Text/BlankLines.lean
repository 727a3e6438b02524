import Restyle.Text.Blank

/-!
# Blank lines

Rules that were added far apart leave runs of blank lines behind. A maximal run of
blank characters that holds two or more line feeds stands for *one* blank line:
`Restyle.Text.collapseBlankLines` writes exactly two line feeds for the part from the
run's first line feed to its last one, and keeps what the run holds before and after
that part – the trailing blanks of the line above and the indentation of the line below.
-/

namespace Restyle.Text

/-- What follows the last line feed of a text, if it has one. -/
def afterLastLineFeed? (cs : List Char) : Option (List Char) :=
  if cs.contains '\n' then some (takeEndWhile (· != '\n') cs) else none

/-- Every run of blank lines becomes one blank line. The scan stops at a line feed and
looks at the blanks behind it: a further line feed among them makes this a run. -/
def collapseBlankLines : List Char → List Char
  | [] => []
  | c :: rest =>
    if c = '\n' then
      match afterLastLineFeed? (rest.takeWhile isBlank) with
      | some indentation =>
        '\n' :: '\n' :: (indentation ++ collapseBlankLines (rest.dropWhile isBlank))
      | none => c :: collapseBlankLines rest
    else c :: collapseBlankLines rest
termination_by text => text.length
decreasing_by
  all_goals
    first
      | exact Nat.lt_succ_of_le (List.IsSuffix.length_le (List.dropWhile_suffix _))
      | exact Nat.lt_succ_self _

end Restyle.Text
