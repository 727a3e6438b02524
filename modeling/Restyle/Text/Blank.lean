/-!
# Blank characters

Class lists, declaration values and at-rule parameters are all cut at *blank*
characters. There is one notion of blank for all of them: the Unicode property
`White_Space`, which is wider than the white space of a style sheet's own tokens
(`Restyle.Css.isSpace`) and narrower than what a script skips between two tokens
(`Restyle.Script.isSpacing`): a zero width space and a byte order mark are not
blank, a no-break space is.

Everything here works on lists of characters, so that each function is a one-line
composition of list functions and a proof can use their lemmas:

* `Restyle.Text.trimStart`, `Restyle.Text.trimEnd` and `Restyle.Text.trim` drop the
  blanks at the ends;
* `Restyle.Text.splitAt` cuts at every character of a class, and
  `Restyle.Text.wordsOf` keeps the non-empty pieces between blanks;
* `Restyle.Text.words` and `Restyle.Text.unwords` are the two ends of every class
  transformation: a string to its words and back.
-/

namespace Restyle.Text

/-- The Unicode property `White_Space`, as ranges of code points. -/
def isBlank (c : Char) : Bool :=
  let n := c.toNat
  (0x9 ≤ n && n ≤ 0xD) || n == 0x20 || n == 0x85 || n == 0xA0 || n == 0x1680 ||
    (0x2000 ≤ n && n ≤ 0x200A) || n == 0x2028 || n == 0x2029 || n == 0x202F ||
    n == 0x205F || n == 0x3000

/-! ### Trimming -/

/-- Drops the characters of a class at the end. -/
def dropEndWhile (p : Char → Bool) (cs : List Char) : List Char :=
  (cs.reverse.dropWhile p).reverse

/-- Keeps only the longest run of characters of a class at the end. -/
def takeEndWhile (p : Char → Bool) (cs : List Char) : List Char :=
  (cs.reverse.takeWhile p).reverse

/-- Drops the blanks in front. -/
def trimStart (cs : List Char) : List Char :=
  cs.dropWhile isBlank

/-- Drops the blanks at the end. -/
def trimEnd (cs : List Char) : List Char :=
  dropEndWhile isBlank cs

/-- Drops the blanks on both sides. -/
def trim (cs : List Char) : List Char :=
  trimEnd (trimStart cs)

/-- Nothing is lost at the end: what is kept and what is dropped make up the text. -/
theorem dropEndWhile_append_takeEndWhile (p : Char → Bool) (cs : List Char) :
    dropEndWhile p cs ++ takeEndWhile p cs = cs := by
  rw [dropEndWhile, takeEndWhile, ← List.reverse_append, List.takeWhile_append_dropWhile,
    List.reverse_reverse]

/-! ### Words -/

/-- Cuts a text at every character of a class; the pieces between two neighbouring cuts
are empty, and a text without a cut is one piece. -/
def splitAt (p : Char → Bool) : List Char → List (List Char)
  | [] => [[]]
  | c :: rest =>
    if p c then [] :: splitAt p rest
    else match splitAt p rest with
      | [] => [[c]]
      | piece :: pieces => (c :: piece) :: pieces

/-- The words of a text: its maximal runs of characters that are not blank. -/
def wordsOf (cs : List Char) : List (List Char) :=
  (splitAt isBlank cs).filter (fun word => !word.isEmpty)

/-- The words of a string, in order. -/
def words (text : String) : List String :=
  (wordsOf text.toList).map String.ofList

/-- Words joined by single spaces. -/
def unwords (ws : List String) : String :=
  String.intercalate " " ws

end Restyle.Text
