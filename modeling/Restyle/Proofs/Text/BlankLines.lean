import Mathlib.Data.List.Basic
import Restyle.Proofs.Text.Search
import Restyle.Proofs.Text.Trim
import Restyle.Text.BlankLines

/-!
# Collapsing blank lines

A run of blank lines lies between two characters that are not blank. So a text is collapsed
piece by piece, wherever it is cut beside such a character
(`Restyle.Text.collapseBlankLines_append_cons`), and all that is said of a text that has been
collapsed comes down to what is said of its runs of blanks.
-/

namespace Restyle.Text

variable {cs xs : List Char} {c : Char}

/-! ### One run -/

/-- Where a run of blank lines starts. -/
theorem collapseBlankLines_run {indentation : List Char}
    (h : afterLastLineFeed? (cs.takeWhile isBlank) = some indentation) :
    collapseBlankLines ('\n' :: cs) =
      '\n' :: '\n' :: (indentation ++ collapseBlankLines (cs.dropWhile isBlank)) := by
  rw [collapseBlankLines, if_pos rfl, h]

/-- Where none starts. -/
theorem collapseBlankLines_cons
    (h : c = '\n' → afterLastLineFeed? (cs.takeWhile isBlank) = none) :
    collapseBlankLines (c :: cs) = c :: collapseBlankLines cs := by
  rw [collapseBlankLines]
  split_ifs with hc
  · rw [h hc]
  · rfl

theorem ne_lineFeed_of_not_isBlank (h : ¬isBlank c) : c ≠ '\n' := by
  rintro rfl
  exact h (by decide)

/-- **Beside a character that is not blank**, a text is collapsed on either side. -/
theorem collapseBlankLines_append_cons (h : ¬isBlank c) (xs ys : List Char) :
    collapseBlankLines (xs ++ c :: ys) =
      collapseBlankLines xs ++ c :: collapseBlankLines ys := by
  induction xs using collapseBlankLines.induct with
  | case1 =>
    rw [List.nil_append, collapseBlankLines_cons fun hc => absurd hc (ne_lineFeed_of_not_isBlank h),
      collapseBlankLines, List.nil_append]
  | case2 rest indentation hrun ih =>
    rw [collapseBlankLines_run hrun, List.cons_append,
      collapseBlankLines_run (by rwa [takeWhile_append_cons h]), dropWhile_append_cons h, ih]
    simp
  | case3 rest hrun ih =>
    rw [collapseBlankLines_cons fun _ => hrun, List.cons_append,
      collapseBlankLines_cons fun _ => by rwa [takeWhile_append_cons h], ih, List.cons_append]
  | case4 d rest hd ih =>
    rw [collapseBlankLines_cons fun hc => absurd hc hd, List.cons_append,
      collapseBlankLines_cons fun hc => absurd hc hd, ih, List.cons_append]

/-- Two texts are collapsed one after the other, if the second starts with no blank. -/
theorem collapseBlankLines_append_of_head? (ys : List Char) (h : ∀ c ∈ ys.head?, ¬isBlank c)
    (xs : List Char) :
    collapseBlankLines (xs ++ ys) = collapseBlankLines xs ++ collapseBlankLines ys := by
  cases ys with
  | nil => simp [collapseBlankLines]
  | cons c ys =>
    have hc := h c rfl
    rw [collapseBlankLines_append_cons hc, collapseBlankLines_cons fun heq =>
      absurd heq (ne_lineFeed_of_not_isBlank hc)]

/-- Or if the first ends with none. -/
theorem collapseBlankLines_append_of_getLast? (xs : List Char)
    (h : ∀ c ∈ xs.getLast?, ¬isBlank c) (ys : List Char) :
    collapseBlankLines (xs ++ ys) = collapseBlankLines xs ++ collapseBlankLines ys := by
  rcases List.eq_nil_or_concat xs with rfl | ⟨front, c, rfl⟩
  · simp [collapseBlankLines]
  · have hc := h c (by simp)
    rw [List.concat_eq_append, List.append_assoc, List.singleton_append,
      collapseBlankLines_append_cons hc, collapseBlankLines_append_cons hc, collapseBlankLines]
    simp

/-! ### What stays -/

/-- The first character stays. -/
theorem head?_collapseBlankLines (cs : List Char) : (collapseBlankLines cs).head? = cs.head? := by
  cases cs with
  | nil => rw [collapseBlankLines]
  | cons c cs =>
    by_cases hc : c = '\n'
    · subst hc
      cases hrun : afterLastLineFeed? (cs.takeWhile isBlank) with
      | none => rw [collapseBlankLines_cons fun _ => hrun]; rfl
      | some indentation => rw [collapseBlankLines_run hrun]; rfl
    · rw [collapseBlankLines_cons fun h => absurd h hc]
      rfl

theorem afterLastLineFeed?_eq_none_iff : afterLastLineFeed? cs = none ↔ '\n' ∉ cs := by
  simp [afterLastLineFeed?]

/-- What is behind the last line feed, if there is one. -/
theorem afterLastLineFeed?_eq_some {indentation : List Char}
    (h : afterLastLineFeed? cs = some indentation) :
    indentation <:+ cs ∧ '\n' ∉ indentation := by
  unfold afterLastLineFeed? at h
  split_ifs at h
  cases h
  refine ⟨⟨_, dropEndWhile_append_takeEndWhile _ cs⟩, fun hmem => ?_⟩
  rw [takeEndWhile, List.mem_reverse] at hmem
  simpa using List.mem_takeWhile_imp hmem

/-- The last line feed is one behind the first character, if there is any, or that character. -/
theorem afterLastLineFeed?_cons (c : Char) (cs : List Char) :
    afterLastLineFeed? (c :: cs) =
      (afterLastLineFeed? cs).or (if c = '\n' then some cs else none) := by
  by_cases hmem : '\n' ∈ cs
  · have hbehind : takeEndWhile (· != '\n') (c :: cs) = takeEndWhile (· != '\n') cs := by
      obtain ⟨xs, ys, rfl⟩ := List.append_of_mem hmem
      simp [takeEndWhile, takeWhile_append_cons]
    simp [afterLastLineFeed?, hmem, hbehind]
  · have hall : ∀ d ∈ cs.reverse, (d != '\n') = true := by
      intro d hd
      rw [List.mem_reverse] at hd
      simpa using fun heq : d = '\n' => hmem (heq ▸ hd)
    by_cases hc : c = '\n'
    · simp [afterLastLineFeed?, takeEndWhile, hmem, hc, List.takeWhile_append_of_pos hall]
    · simp [afterLastLineFeed?, hmem, hc, Ne.symm hc]

/-- What is behind the last line feed, and that there is one. -/
theorem exists_of_afterLastLineFeed?_eq_some {indentation : List Char}
    (h : afterLastLineFeed? cs = some indentation) :
    ∃ inside, cs = inside ++ '\n' :: indentation := by
  induction cs generalizing indentation with
  | nil => cases h
  | cons c cs ih =>
    rw [afterLastLineFeed?_cons, Option.or_eq_some_iff] at h
    rcases h with h | ⟨-, h⟩
    · obtain ⟨inside, rfl⟩ := ih h
      exact ⟨c :: inside, rfl⟩
    · split_ifs at h with hc
      exact ⟨[], by rw [hc, Option.some.inj h, List.nil_append]⟩

/-- Nothing new comes into a text. -/
theorem mem_of_mem_collapseBlankLines {d : Char} (h : d ∈ collapseBlankLines cs) : d ∈ cs := by
  induction cs using collapseBlankLines.induct with
  | case1 => rwa [collapseBlankLines] at h
  | case2 rest indentation hrun ih =>
    rw [collapseBlankLines_run hrun] at h
    have hblank : indentation ⊆ rest := fun e he =>
      (List.takeWhile_sublist _).subset ((afterLastLineFeed?_eq_some hrun).1.subset he)
    have hrest : rest.dropWhile isBlank ⊆ rest := (List.dropWhile_sublist _).subset
    grind
  | case3 rest hrun ih =>
    rw [collapseBlankLines_cons fun _ => hrun] at h
    grind
  | case4 c rest hc ih =>
    rw [collapseBlankLines_cons fun heq => absurd heq hc] at h
    grind

/-- A text of one line stays. -/
theorem collapseBlankLines_of_notMem (h : '\n' ∉ cs) : collapseBlankLines cs = cs := by
  induction cs with
  | nil => rw [collapseBlankLines]
  | cons c cs ih =>
    rw [collapseBlankLines_cons fun hc => absurd hc (by grind), ih (by grind)]

/-! ### Collapsing again -/

/-- A run of blanks that was collapsed stays. -/
theorem collapseBlankLines_collapseBlankLines_of_isBlank (h : ∀ c ∈ cs, isBlank c) :
    collapseBlankLines (collapseBlankLines cs) = collapseBlankLines cs := by
  induction cs using collapseBlankLines.induct with
  | case1 => simp [collapseBlankLines]
  | case2 rest indentation hrun ih =>
    -- two line feeds and the last indentation are left, and collapse to themselves
    have hrest : ∀ c ∈ rest, isBlank c := fun c hc => h c (List.mem_cons_of_mem _ hc)
    have hdrop : rest.dropWhile isBlank = [] := List.dropWhile_eq_nil_iff.mpr hrest
    obtain ⟨hsuffix, hmem⟩ := afterLastLineFeed?_eq_some hrun
    have hblank : ∀ c ∈ '\n' :: indentation, isBlank c := by
      intro c hc
      rcases List.mem_cons.mp hc with rfl | hc
      · decide
      · exact hrest c ((List.takeWhile_sublist _).subset (hsuffix.subset hc))
    have hagain : afterLastLineFeed? (('\n' :: indentation).takeWhile isBlank) =
        some indentation := by
      rw [List.takeWhile_eq_self_iff.mpr hblank, afterLastLineFeed?_cons,
        afterLastLineFeed?_eq_none_iff.mpr hmem]
      rfl
    rw [collapseBlankLines_run hrun, hdrop, collapseBlankLines, List.append_nil,
      collapseBlankLines_run hagain, List.dropWhile_eq_nil_iff.mpr hblank, collapseBlankLines,
      List.append_nil]
  | case3 rest hrun ih =>
    -- a single line feed, with nothing to collapse
    have hrest : ∀ c ∈ rest, isBlank c := fun c hc => h c (List.mem_cons_of_mem _ hc)
    have hmem : '\n' ∉ rest := by
      rwa [List.takeWhile_eq_self_iff.mpr hrest, afterLastLineFeed?_eq_none_iff] at hrun
    rw [collapseBlankLines_cons fun _ => hrun, collapseBlankLines_of_notMem hmem,
      collapseBlankLines_cons fun _ => hrun, collapseBlankLines_of_notMem hmem]
  | case4 c rest hc ih =>
    rw [collapseBlankLines_cons fun heq => absurd heq hc,
      collapseBlankLines_cons fun heq => absurd heq hc,
      ih fun d hd => h d (List.mem_cons_of_mem _ hd)]

/-- A text is blank, or it is cut beside a character that is not. -/
@[elab_as_elim]
theorem induction_on_blanks {motive : List Char → Prop}
    (blank : ∀ cs, (∀ c ∈ cs, isBlank c) → motive cs)
    (cut : ∀ xs c ys, ¬isBlank c → motive xs → motive ys → motive (xs ++ c :: ys))
    (cs : List Char) : motive cs := by
  by_cases hblank : ∀ c ∈ cs, isBlank c
  · exact blank cs hblank
  · simp only [not_forall] at hblank
    obtain ⟨c, hmem, hc⟩ := hblank
    obtain ⟨xs, ys, hcs⟩ := List.append_of_mem hmem
    have hlength : cs.length = xs.length + ys.length + 1 := by
      rw [hcs]
      simp [Nat.add_assoc]
    rw [hcs]
    exact cut xs c ys hc (induction_on_blanks blank cut xs) (induction_on_blanks blank cut ys)
termination_by cs.length

/-- **A text that was collapsed stays.** -/
@[simp] theorem collapseBlankLines_collapseBlankLines (cs : List Char) :
    collapseBlankLines (collapseBlankLines cs) = collapseBlankLines cs := by
  induction cs using induction_on_blanks with
  | blank cs hblank => exact collapseBlankLines_collapseBlankLines_of_isBlank hblank
  | cut xs c ys hc hxs hys =>
    rw [collapseBlankLines_append_cons hc, collapseBlankLines_append_cons hc, hxs, hys]

/-- Blanks at the end may be dropped before or after. -/
theorem trimEnd_collapseBlankLines (cs : List Char) :
    trimEnd (collapseBlankLines cs) = collapseBlankLines (trimEnd cs) := by
  induction cs using induction_on_blanks with
  | blank cs hblank =>
    have hnil {ds : List Char} (h : ∀ c ∈ ds, isBlank c) : trimEnd ds = [] :=
      List.rdropWhile_eq_nil_iff.mpr h
    rw [hnil hblank, hnil fun c hc => hblank c (mem_of_mem_collapseBlankLines hc),
      collapseBlankLines]
  | cut xs c ys hc hxs hys =>
    rw [collapseBlankLines_append_cons hc, trimEnd_append_cons hc, hys, trimEnd_append_cons hc,
      collapseBlankLines_append_cons hc]

/-! ### Looking for a piece -/

section Infix

variable {piece : List Char} (hline : '\n' ∉ piece)

include hline

/-- A piece of one line is not in front of a text if it was not. -/
theorem prefix_of_prefix_collapseBlankLines (h : piece <+: collapseBlankLines cs) :
    piece <+: cs := by
  induction piece generalizing cs with
  | nil => exact List.nil_prefix
  | cons c piece ih =>
    have hc : c ≠ '\n' := fun heq => hline (by simp [heq])
    obtain ⟨more, hmore⟩ := h
    have hhead : cs.head? = some c := by
      rw [← head?_collapseBlankLines, ← hmore]
      rfl
    obtain ⟨rest, rfl⟩ := List.head?_eq_some_iff.mp hhead
    rw [collapseBlankLines_cons fun heq => absurd heq hc] at hmore
    exact List.cons_prefix_cons.mpr ⟨rfl, ih (fun hmem => hline (List.mem_cons_of_mem _ hmem))
      ⟨more, (List.cons.inj hmore).2⟩⟩

/-- **A piece of one line is nowhere in a text where it was not before**, if it does not start
with a blank. -/
theorem infix_of_infix_collapseBlankLines (hfirst : ∀ p ∈ piece.head?, ¬isBlank p)
    (h : piece <:+: collapseBlankLines cs) : piece <:+: cs := by
  induction cs using collapseBlankLines.induct with
  | case1 => rwa [collapseBlankLines] at h
  | case2 rest indentation hrun ih =>
    rw [collapseBlankLines_run hrun] at h
    have hblanks : ∀ c ∈ '\n' :: '\n' :: indentation, isBlank c := by
      intro c hc
      simp only [List.mem_cons] at hc
      rcases hc with rfl | rfl | hc
      · decide
      · decide
      · exact List.mem_takeWhile_imp ((afterLastLineFeed?_eq_some hrun).1.subset hc)
    have hrest := ih (infix_of_infix_append_left (fun p hp hmem => hfirst p hp (hblanks p hmem)) h)
    exact (hrest.trans (List.dropWhile_suffix _).isInfix).trans (List.suffix_cons _ _).isInfix
  | case3 rest hrun ih =>
    have heq : collapseBlankLines ('\n' :: rest) = '\n' :: collapseBlankLines rest :=
      collapseBlankLines_cons fun _ => hrun
    rw [heq, List.infix_cons_iff] at h
    rcases h with h | h
    · exact (prefix_of_prefix_collapseBlankLines hline (heq ▸ h)).isInfix
    · exact (ih h).trans (List.suffix_cons _ _).isInfix
  | case4 c rest hc ih =>
    have heq : collapseBlankLines (c :: rest) = c :: collapseBlankLines rest :=
      collapseBlankLines_cons fun heq => absurd heq hc
    rw [heq, List.infix_cons_iff] at h
    rcases h with h | h
    · exact (prefix_of_prefix_collapseBlankLines hline (heq ▸ h)).isInfix
    · exact (ih h).trans (List.suffix_cons _ _).isInfix

end Infix

end Restyle.Text
