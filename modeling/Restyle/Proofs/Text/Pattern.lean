import Restyle.Proofs.Text.BlankLines

/-!
# Blank lines as a pattern

Runs of blank lines are what the pattern `(\n\s*\n)+` finds: a line feed, any number of blanks and
a line feed, once or more often. A line feed is a blank itself, so such a text can be taken apart
in many ways; which of them is meant is a matter of preference. A pattern is given here by what it
can leave of a text at whose beginning it is found, the preferred one first
(`Restyle.Text.Pattern.leaves`): repeating once more is tried before going on. What is found is
replaced from left to right (`Restyle.Text.Pattern.Replaces`).

The scan of `Restyle.Text.collapseBlankLines` looks at the blanks behind a line feed once, and
tries nothing. It does what the pattern says, for two reasons. The preferred number of blanks is
the one that leaves what is behind the *last* line feed among them
(`Restyle.Text.head?_leaves_upToLineFeed`), and there is no line feed behind that one with which a
further blank line could begin (`Restyle.Text.head?_leaves_blankLines`). So a text with its blank
lines replaced is one in which they have been collapsed
(`Restyle.Text.replaces_blankLines_iff`).
-/

namespace Restyle.Text

/-! ### Patterns -/

/-- A pattern for pieces of a text. -/
inductive Pattern where
  /-- One character of a class. -/
  | char (p : Char → Bool)
  /-- One pattern behind another. -/
  | andThen (first second : Pattern)
  /-- A pattern any number of times, and as often as possible. -/
  | many (body : Pattern)

/-- What repeated steps can leave of a text, each of which takes something: what more of them
leave comes before what fewer do. -/
def leavesMany (step : List Char → List (List Char)) (cs : List Char) : List (List Char) :=
  (step cs).flatMap (fun rest =>
    if rest.length < cs.length then leavesMany step rest else []) ++ [cs]
termination_by cs.length

namespace Pattern

/-- **What a pattern can leave** of a text at whose beginning it is found, the preferred one
first. -/
def leaves : Pattern → List Char → List (List Char)
  | char _, [] => []
  | char p, c :: cs => if p c then [cs] else []
  | andThen first second, cs => (first.leaves cs).flatMap second.leaves
  | many body, cs => leavesMany body.leaves cs

/-- A pattern once or more often. -/
def oneOrMore (body : Pattern) : Pattern :=
  body.andThen body.many

/-- **A text in which what a pattern finds is replaced** by a piece. It is searched from left to
right, what is found is as much as the pattern prefers, and the search goes on behind it. This is
for patterns that take something wherever they are found. -/
inductive Replaces (pattern : Pattern) (piece : List Char) : (cs out : List Char) → Prop
  | done : pattern.leaves [] = [] → Replaces pattern piece [] []
  | skipped {c cs out} : pattern.leaves (c :: cs) = [] → Replaces pattern piece cs out →
      Replaces pattern piece (c :: cs) (c :: out)
  | found {cs rest out} : (pattern.leaves cs).head? = some rest →
      rest.length < cs.length → Replaces pattern piece rest out →
      Replaces pattern piece cs (piece ++ out)

variable {pattern body : Pattern} {piece cs rest out out' : List Char}

theorem leaves_andThen (first second : Pattern) (cs : List Char) :
    (first.andThen second).leaves cs = (first.leaves cs).flatMap second.leaves := rfl

/-- **There is one way to replace** what is found. -/
theorem Replaces.unique (h : pattern.Replaces piece cs out) (h' : pattern.Replaces piece cs out') :
    out = out' := by
  induction h generalizing out' with
  | done hnil =>
    cases h' with
    | done _ => rfl
    | found hfound _ _ => simp [hnil] at hfound
  | skipped hnil _ ih =>
    cases h' with
    | skipped _ hrest => rw [ih hrest]
    | found hfound _ _ => simp [hnil] at hfound
  | found hfound _ _ ih =>
    cases h' with
    | done hnil => simp [hnil] at hfound
    | skipped hnil _ => simp [hnil] at hfound
    | found hfound' _ hrest =>
      obtain rfl := Option.some.inj (hfound.symm.trans hfound')
      rw [ih hrest]

/-- Where a pattern is not found, it is found no times. -/
theorem leaves_many_of_leaves_eq_nil (h : body.leaves cs = []) : body.many.leaves cs = [cs] := by
  rw [leaves, leavesMany, h]
  rfl

theorem leaves_oneOrMore_eq_nil (h : body.leaves cs = []) : body.oneOrMore.leaves cs = [] := by
  rw [oneOrMore, leaves_andThen, h]
  rfl

/-- What is preferred of a repeated pattern, if it cannot be found again behind it. -/
theorem head?_leaves_oneOrMore (h : (body.leaves cs).head? = some rest)
    (hrest : body.leaves rest = []) : (body.oneOrMore.leaves cs).head? = some rest := by
  obtain ⟨more, hmore⟩ := List.head?_eq_some_iff.mp h
  rw [oneOrMore, leaves_andThen, hmore, List.flatMap_cons, leaves_many_of_leaves_eq_nil hrest]
  rfl

end Pattern

/-! ### The pattern of blank lines -/

open Pattern

/-- Blanks up to a line feed, which may be one of them. -/
def upToLineFeed : Pattern :=
  (Pattern.char isBlank).many.andThen (.char (· == '\n'))

/-- A line feed, blanks and a line feed. -/
def blankLine : Pattern :=
  (Pattern.char (· == '\n')).andThen upToLineFeed

/-- **Blank lines**, one or more of them. -/
def blankLines : Pattern :=
  blankLine.oneOrMore

variable {c : Char} {cs out : List Char}

theorem leaves_blanks_cons (h : isBlank c) :
    (Pattern.char isBlank).many.leaves (c :: cs) =
      (Pattern.char isBlank).many.leaves cs ++ [c :: cs] := by
  rw [Pattern.leaves, leavesMany, Pattern.leaves]
  simp [h, Pattern.leaves]

/-- **As many blanks as possible in front of a line feed** are those in front of the last one. -/
theorem head?_leaves_upToLineFeed (cs : List Char) :
    (upToLineFeed.leaves cs).head? =
      (afterLastLineFeed? (cs.takeWhile isBlank)).map (· ++ cs.dropWhile isBlank) := by
  induction cs with
  | nil =>
    have hnone : (Pattern.char isBlank).leaves [] = [] := rfl
    rw [upToLineFeed, leaves_andThen, leaves_many_of_leaves_eq_nil hnone]
    rfl
  | cons c cs ih =>
    by_cases hc : isBlank c
    · -- fewer blanks are tried behind more of them, so `c` alone comes last
      have hleaves : upToLineFeed.leaves (c :: cs) =
          upToLineFeed.leaves cs ++ (Pattern.char (· == '\n')).leaves (c :: cs) := by
        rw [upToLineFeed, leaves_andThen, leaves_blanks_cons hc, List.flatMap_append,
          List.flatMap_singleton, ← leaves_andThen]
      rw [hleaves, List.head?_append, ih, List.takeWhile_cons_of_pos hc,
        List.dropWhile_cons_of_pos hc, afterLastLineFeed?_cons, Pattern.leaves]
      by_cases hline : c = '\n' <;>
        cases afterLastLineFeed? (cs.takeWhile isBlank) <;> simp [hline]
    · have hnone : (Pattern.char isBlank).leaves (c :: cs) = [] := by simp [Pattern.leaves, hc]
      have hline : c ≠ '\n' := ne_lineFeed_of_not_isBlank hc
      rw [upToLineFeed, leaves_andThen, leaves_many_of_leaves_eq_nil hnone,
        List.takeWhile_cons_of_neg hc]
      simp [Pattern.leaves, afterLastLineFeed?, hline]

theorem leaves_blankLine_lineFeed (cs : List Char) :
    blankLine.leaves ('\n' :: cs) = upToLineFeed.leaves cs := by
  simp [blankLine, Pattern.leaves]

theorem leaves_blankLine_eq_nil (h : ∀ c ∈ cs.head?, c ≠ '\n') : blankLine.leaves cs = [] := by
  cases cs with
  | nil => rfl
  | cons c cs => simp [blankLine, Pattern.leaves, h c rfl]

theorem leaves_blankLines_eq_nil (h : ∀ c ∈ cs.head?, c ≠ '\n') : blankLines.leaves cs = [] :=
  leaves_oneOrMore_eq_nil (leaves_blankLine_eq_nil h)

/-- Blank lines are not found where there is no further line feed among the blanks. -/
theorem leaves_blankLines_lineFeed (h : afterLastLineFeed? (cs.takeWhile isBlank) = none) :
    blankLines.leaves ('\n' :: cs) = [] := by
  refine leaves_oneOrMore_eq_nil ?_
  rw [leaves_blankLine_lineFeed, ← List.head?_eq_none_iff, head?_leaves_upToLineFeed, h]
  rfl

/-- **Where there is one, they end with the last line feed**: no line feed comes behind it that
could begin one more blank line. -/
theorem head?_leaves_blankLines {indentation : List Char}
    (h : afterLastLineFeed? (cs.takeWhile isBlank) = some indentation) :
    (blankLines.leaves ('\n' :: cs)).head? = some (indentation ++ cs.dropWhile isBlank) := by
  have hfound : (blankLine.leaves ('\n' :: cs)).head? =
      some (indentation ++ cs.dropWhile isBlank) := by
    rw [leaves_blankLine_lineFeed, head?_leaves_upToLineFeed, h]
    rfl
  have hmem := (afterLastLineFeed?_eq_some h).2
  refine head?_leaves_oneOrMore hfound (leaves_blankLine_eq_nil fun c hc => ?_)
  rw [List.head?_append, Option.mem_def, Option.or_eq_some_iff] at hc
  rcases hc with hc | ⟨-, hc⟩
  · exact fun heq => hmem (heq ▸ List.mem_of_mem_head? hc)
  · exact ne_lineFeed_of_not_isBlank (not_isBlank_head?_trimStart cs c hc)

/-! ### Replacing blank lines -/

/-- Nothing is replaced before the next line feed. -/
theorem Pattern.Replaces.append {piece : List Char} (h : blankLines.Replaces piece cs out)
    (xs : List Char) (hxs : '\n' ∉ xs) : blankLines.Replaces piece (xs ++ cs) (xs ++ out) := by
  induction xs with
  | nil => exact h
  | cons c xs ih =>
    obtain ⟨hc, hrest⟩ := List.ne_and_not_mem_of_not_mem_cons hxs
    refine .skipped (leaves_blankLines_eq_nil ?_) (ih hrest)
    rintro d ⟨⟩
    exact hc.symm

/-- **What collapsing does is to replace** what the pattern finds by two line feeds. -/
theorem replaces_blankLines (cs : List Char) :
    blankLines.Replaces ['\n', '\n'] cs (collapseBlankLines cs) := by
  induction cs using collapseBlankLines.induct with
  | case1 =>
    rw [collapseBlankLines]
    exact .done rfl
  | case2 rest indentation hrun ih =>
    obtain ⟨hsuffix, hmem⟩ := afterLastLineFeed?_eq_some hrun
    have hlength : (indentation ++ rest.dropWhile isBlank).length < ('\n' :: rest).length := by
      have hsplit : (rest.takeWhile isBlank ++ rest.dropWhile isBlank).length = rest.length := by
        rw [List.takeWhile_append_dropWhile]
      have hle := hsuffix.length_le
      simp only [List.length_append, List.length_cons] at hsplit ⊢
      omega
    rw [collapseBlankLines_run hrun]
    exact .found (head?_leaves_blankLines hrun) hlength (ih.append indentation hmem)
  | case3 rest hrun ih =>
    rw [collapseBlankLines_cons fun _ => hrun]
    exact .skipped (leaves_blankLines_lineFeed hrun) ih
  | case4 c rest hc ih =>
    rw [collapseBlankLines_cons fun heq => absurd heq hc]
    exact ih.append [c] (by simpa using Ne.symm hc)

theorem replaces_blankLines_iff :
    blankLines.Replaces ['\n', '\n'] cs out ↔ out = collapseBlankLines cs := by
  constructor
  · exact fun h => h.unique (replaces_blankLines cs)
  · rintro rfl
    exact replaces_blankLines cs

end Restyle.Text
