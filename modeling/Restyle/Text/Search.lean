/-!
# Looking for a piece of text

The searches that the transformations are made of, on lists of characters: does a text
start with a piece (`Restyle.Text.strip?`), does it hold the piece anywhere
(`Restyle.Text.contains`), where is it first (`Restyle.Text.cutAt?`). All of them are
the leftmost search, by recursion on the text.
-/

namespace Restyle.Text

/-- What follows `piece` at the front of a text, if the text starts with it. -/
def strip? : (piece : List Char) → List Char → Option (List Char)
  | [], rest => some rest
  | _ :: _, [] => none
  | p :: piece, c :: rest => if p = c then strip? piece rest else none

/-- Whether a text starts with `piece`. -/
def startsWith (piece text : List Char) : Bool :=
  (strip? piece text).isSome

/-- What `piece` is preceded by in a text where it ends the text. -/
def stripEnd? (piece text : List Char) : Option (List Char) :=
  (strip? piece.reverse text.reverse).map List.reverse

/-- Whether `piece` occurs in a text, the empty piece occurring everywhere. -/
def contains (piece : List Char) : List Char → Bool
  | [] => piece.isEmpty
  | c :: rest => startsWith piece (c :: rest) || contains piece rest

/-- The text before and after the **first** occurrence of a piece. -/
def cutAt? (piece : List Char) : List Char → Option (List Char × List Char)
  | [] => if piece.isEmpty then some ([], []) else none
  | c :: rest =>
    match strip? piece (c :: rest) with
    | some after => some ([], after)
    | none => (cutAt? piece rest).map fun cut => (c :: cut.1, cut.2)

/-- The text with the first occurrence of `piece` replaced. -/
def replaceFirst (piece replacement text : List Char) : List Char :=
  match cutAt? piece text with
  | some (before, after) => before ++ replacement ++ after
  | none => text

/-- Stripping succeeds exactly on the texts that start with the piece. -/
theorem strip?_eq_some_iff {piece text rest : List Char} :
    strip? piece text = some rest ↔ text = piece ++ rest := by
  induction piece generalizing text with
  | nil => simp [strip?, eq_comm]
  | cons p piece ih =>
    cases text with
    | nil => simp [strip?]
    | cons c text =>
      by_cases h : p = c
      · simp [strip?, h, ih]
      · simp [strip?, h, Ne.symm h]

/-- What is left after a strip is not longer than the text. -/
theorem length_le_of_strip? {piece text rest : List Char} (h : strip? piece text = some rest) :
    rest.length ≤ text.length := by
  rw [strip?_eq_some_iff] at h
  simp [h]

/-- The text without any occurrence of `piece`, taken from left to right: where an
occurrence starts it is dropped, and the search goes on behind it. -/
def removeAll (piece : List Char) : List Char → List Char
  | [] => []
  | c :: rest =>
    match piece with
    | [] => c :: rest
    | p :: tail =>
      if p = c then
        match h : strip? tail rest with
        | some after =>
          have : after.length ≤ rest.length := length_le_of_strip? h
          removeAll (p :: tail) after
        | none => c :: removeAll (p :: tail) rest
      else c :: removeAll (p :: tail) rest
termination_by text => text.length

/-- What follows `piece` at the front of a string. -/
def stripString? (piece text : String) : Option String :=
  (strip? piece.toList text.toList).map String.ofList

/-- Whether a string starts with a piece. -/
def stringStartsWith (piece text : String) : Bool :=
  startsWith piece.toList text.toList

/-- Whether a string holds a piece. -/
def stringContains (piece text : String) : Bool :=
  contains piece.toList text.toList

end Restyle.Text
