import Restyle.Class.Token
import Restyle.Order.Distinct
import Restyle.Text.Search

/-!
# Directions

A class list written for text that runs from left to right names *physical* sides. For a
project that also runs from right to left, `Restyle.Class.redirect` names the *logical*
ones instead: `ml-2` becomes `ms-2`, `text-right` becomes `text-end`.

Three kinds of classes take more than that.

* A position under a side variant, as in `data-[side=left]:-right-2`, stays physical: the
  variant has decided the side (`Restyle.Class.positions`).
* A slide under a logical side variant becomes logical too (`Restyle.Class.sideSlides`).
* What has no logical form gets a companion under the variant `rtl`: a shift along
  the x axis with the opposite sign, a resize cursor with the opposite side, and
  `rtl:space-x-reverse` where children are spaced or divided (`Restyle.Class.helpersOf`,
  `Restyle.Class.reverseHelpers`). These helpers follow all other classes.
-/

namespace Restyle.Class

/-- The class that asks for a horizontal flip. -/
def flipMarker : String := "cn-rtl-flip"

/-- What the flip marker becomes. -/
def flipClass : String := "rtl:rotate-180"

/-- How a physical utility is recognised, and the logical one in its place. -/
inductive Mapping where
  /-- A utility that goes on with an amount. -/
  | stem (physical logical : String)
  /-- A utility that is complete. -/
  | whole (physical logical : String)
  deriving DecidableEq, Repr

/-- From physical to logical utilities; the first that applies decides. -/
def mappings : List Mapping :=
  [.stem "-ml-" "-ms-", .stem "-mr-" "-me-", .stem "ml-" "ms-", .stem "mr-" "me-",
    .stem "pl-" "ps-", .stem "pr-" "pe-",
    .stem "scroll-ml-" "scroll-ms-", .stem "scroll-mr-" "scroll-me-",
    .stem "scroll-pl-" "scroll-ps-", .stem "scroll-pr-" "scroll-pe-",
    .stem "-left-" "-start-", .stem "-right-" "-end-",
    .stem "left-" "start-", .stem "right-" "end-",
    .stem "inset-l-" "inset-inline-start-", .stem "inset-r-" "inset-inline-end-",
    .stem "rounded-tl-" "rounded-ss-", .stem "rounded-tr-" "rounded-se-",
    .stem "rounded-bl-" "rounded-es-", .stem "rounded-br-" "rounded-ee-",
    .stem "rounded-l-" "rounded-s-", .stem "rounded-r-" "rounded-e-",
    .whole "rounded-tl" "rounded-ss", .whole "rounded-tr" "rounded-se",
    .whole "rounded-bl" "rounded-es", .whole "rounded-br" "rounded-ee",
    .whole "rounded-l" "rounded-s", .whole "rounded-r" "rounded-e",
    .stem "border-l-" "border-s-", .stem "border-r-" "border-e-",
    .whole "border-l" "border-s", .whole "border-r" "border-e",
    .whole "text-left" "text-start", .whole "text-right" "text-end",
    .whole "float-left" "float-start", .whole "float-right" "float-end",
    .whole "clear-left" "clear-start", .whole "clear-right" "clear-end",
    .whole "origin-top-left" "origin-top-start", .whole "origin-top-right" "origin-top-end",
    .whole "origin-bottom-left" "origin-bottom-start",
    .whole "origin-bottom-right" "origin-bottom-end",
    .whole "origin-left" "origin-start", .whole "origin-right" "origin-end"]

/-- The utilities that place an element against a side. -/
def positions : List String := ["-left-", "-right-", "left-", "right-"]

/-- The variants under which a position stays physical. -/
def sideVariants : List String := ["data-[side=left]", "data-[side=right]"]

/-- Slides that turn logical under a logical side: the variant, the slide, the slide in its
place. -/
def sideSlides : List (String × String × String) :=
  [("data-[side=inline-start]", "slide-in-from-right", "slide-in-from-end"),
    ("data-[side=inline-start]", "slide-out-to-right", "slide-out-to-end"),
    ("data-[side=inline-end]", "slide-in-from-left", "slide-in-from-start"),
    ("data-[side=inline-end]", "slide-out-to-left", "slide-out-to-start")]

/-- Utilities without a logical form, and the one that mirrors each. -/
def mirrored : List (String × String) :=
  [("cursor-w-resize", "cursor-e-resize"), ("cursor-e-resize", "cursor-w-resize")]

/-- Pieces of a class list, and the helper that each of them asks for. -/
def reverseHelpers : List (String × String) :=
  [("space-x-", "rtl:space-x-reverse"), ("divide-x-", "rtl:divide-x-reverse")]

/-- Whether the variants of a class hold a piece of text. -/
def hasVariant (token : Token) (piece : String) : Bool :=
  match token.variant with
  | some variant => Text.stringContains piece variant
  | none => false

/-- What one mapping makes of a utility: nothing if it does not apply, else the utility in
its place, which is missing for a position under a side variant. -/
def Mapping.redirect? (mapping : Mapping) (underSide : Bool) (utility : String) :
    Option (Option String) :=
  match mapping with
  | .stem physical logical =>
    (Text.stripString? physical utility).map fun rest =>
      if underSide && positions.contains physical then none else some (logical ++ rest)
  | .whole physical logical => if utility = physical then some (some logical) else none

/-- The slide in place of a slide under a logical side variant. -/
def logicalSlide? (token : Token) : Option String :=
  sideSlides.findSome? fun (side, physical, logical) =>
    if hasVariant token side then
      (Text.stripString? physical token.utility).map (logical ++ ·)
    else none

/-- The logical utility in place of the utility of a class. -/
def logicalUtility? (token : Token) : Option String :=
  match logicalSlide? token with
  | some utility => some utility
  | none =>
    (mappings.findSome? (·.redirect? (sideVariants.any (hasVariant token)) token.utility)).join

/-- A shift along the x axis with the opposite sign. -/
def oppositeShift? (utility : String) : Option String :=
  match Text.stripString? "-translate-x-" utility with
  | some amount => some ("translate-x-" ++ amount)
  | none => (Text.stripString? "translate-x-" utility).map ("-translate-x-" ++ ·)

/-- The companion of a class under the variant `rtl`. -/
def underRtl (token : Token) (utility : String) : String :=
  ((token.withUtility utility).withOuterVariant "rtl").render

/-- The helpers that one class asks for. -/
def helpersOf (token : Token) : List String :=
  (if hasVariant token "rtl" then []
    else ((oppositeShift? token.utility).map (underRtl token)).toList) ++
  ((mirrored.find? (·.1 = token.utility)).map fun pair => underRtl token pair.2).toList

/-- What one class becomes. -/
def logicalClass (text : String) : String :=
  if text = flipMarker then flipClass
  else
    let token := Token.ofString text
    match logicalUtility? token with
    | some utility => (token.withUtility utility).render
    | none => text

/-- The helpers that a class asks for; the flip marker asks for none. -/
def classHelpers (text : String) : List String :=
  if text = flipMarker then [] else helpersOf (Token.ofString text)

/-- A class list in logical directions, each class once, the helpers last. -/
def redirect (text : String) : String :=
  let classes := Text.words text
  let reversals := reverseHelpers.filter fun (piece, _) => Text.stringContains piece text
  Text.unwords (firsts
    (classes.map logicalClass ++ (classes.flatMap classHelpers ++ reversals.map Prod.snd)))

end Restyle.Class
