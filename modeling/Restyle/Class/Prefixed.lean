import Restyle.Class.Token
import Restyle.Text.Search

/-!
# Prefixed classes

A project may ask for a prefix on every utility, so that its classes never clash with
those of other style sheets. `Restyle.Class.addPrefix` writes it in front of each utility,
behind the variants and behind the dash of a negative utility: `hover:flex` becomes
`hover:tw-flex` and `-mt-2` becomes `-tw-mt-2`. A utility that starts with the prefix has
it already, and a class without utility has nothing to carry one.

A string literal is not always a class list. `Restyle.Class.looksLikeClassList` is the
guess that decides: a text with a space and a hyphen, or one well-known utility.
-/

namespace Restyle.Class

/-- Utilities of one word that are taken for a class list on their own. -/
def standaloneUtilities : List String :=
  ["absolute", "block", "border", "capitalize", "container", "contents", "fixed", "flex",
    "grid", "grow", "hidden", "inline", "invisible", "isolate", "italic", "lowercase",
    "not-sr-only", "outline", "relative", "ring", "rounded", "shadow", "shrink", "sr-only",
    "static", "sticky", "table", "transition", "truncate", "underline", "uppercase", "visible"]

/-- Whether a text reads as a class list. -/
def looksLikeClassList (text : String) : Bool :=
  let cs := text.toList
  (cs.contains ' ' && cs.contains '-') ||
    standaloneUtilities.contains (String.ofList (Text.trim cs))

/-- A utility with its prefix, behind the dash of a negative one; nothing if there is no
utility or if the prefix is there already. -/
def prefixUtility? (mark utility : String) : Option String :=
  if utility.isEmpty then none
  else
    let (sign, bare) := match Text.stripString? "-" utility with
      | some bare => ("-", bare)
      | none => ("", utility)
    if Text.stringStartsWith mark bare then none else some (sign ++ mark ++ bare)

/-- One class with its utility prefixed. -/
def prefixClass (mark text : String) : String :=
  let token := Token.ofString text
  match prefixUtility? mark token.utility with
  | some utility => (token.withUtility utility).render
  | none => text

/-- A class list with every utility prefixed. The empty prefix leaves the text as it is. -/
def addPrefix (text mark : String) : String :=
  if mark.isEmpty then text
  else Text.unwords ((Text.words text).map (prefixClass mark))

end Restyle.Class
