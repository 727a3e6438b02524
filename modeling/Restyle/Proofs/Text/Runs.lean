import Mathlib.Data.List.Forall2
import Mathlib.Data.List.SplitBy
import Restyle.Proofs.Text.Pattern

/-!
# Runs of blanks

A text is made of **runs** (`Restyle.Text.runs`), which hold blanks only or other characters only
and are as long as possible, so that the two kinds take turns. Blank lines are a matter of single
runs: a run with two line feeds or more keeps what is in front of the first one and behind the
last one and has exactly two between them, and every other run stays as it is
(`Restyle.Text.Collapses`).

A text that has been collapsed has the same runs, each of them collapsed
(`Restyle.Text.forall₂_collapses_runs`). No run comes, goes or grows together with another one,
since a run that holds something still does when it has been collapsed, and of the same kind. So
all there is to know of a text with its blank lines collapsed is known run by run
(`Restyle.Text.collapses_runs_collapseBlankLines`).
-/

namespace Restyle.Text

/-! ### Runs -/

/-- The **runs** of a text: its longest pieces of blanks only or of other characters only. -/
def runs (cs : List Char) : List (List Char) :=
  cs.splitBy fun c d => isBlank c == isBlank d

/-- What becomes of a run when its blank lines are collapsed. -/
inductive Collapses : (run out : List Char) → Prop
  /-- A run with less than two line feeds stays. Such are all runs that are not of blanks. -/
  | kept {run} : run.count '\n' < 2 → Collapses run run
  /-- In any other run, two line feeds stand for all from the first one to the last one. -/
  | collapsed {front inside back} : '\n' ∉ front → '\n' ∉ back →
      Collapses (front ++ '\n' :: (inside ++ '\n' :: back)) (front ++ '\n' :: '\n' :: back)

variable {cs run rest out : List Char} {c : Char} {b : Bool}

/-- Characters that are all of one kind, with others behind them, are a run. -/
theorem runs_append (hne : run ≠ []) (hrun : ∀ c ∈ run, isBlank c = b)
    (hrest : ∀ c ∈ rest.head?, isBlank c ≠ b) : runs (run ++ rest) = run :: runs rest := by
  have hchain : run.IsChain fun c d => isBlank c == isBlank d := by
    refine List.Pairwise.isChain (List.pairwise_of_forall_mem_list fun c hc d hd => ?_)
    rw [hrun c hc, hrun d hd]
    exact beq_self_eq_true b
  have hcut : ∀ c ∈ run.getLast?, ∀ d ∈ rest.head?, (isBlank c == isBlank d) = false := by
    intro c hc d hd
    rw [hrun c (List.mem_of_mem_getLast? hc), beq_eq_false_iff_ne]
    exact (hrest d hd).symm
  rw [runs, List.splitBy_append hcut, List.splitBy_of_isChain hne hchain]
  rfl

/-- What holds of the empty text and goes over from what is behind a run to the whole holds of all
texts. -/
@[elab_as_elim]
theorem run_induction {motive : List Char → Prop} (nil : motive [])
    (run : ∀ b run rest, run ≠ [] → (∀ c ∈ run, isBlank c = b) →
      (∀ c ∈ rest.head?, isBlank c ≠ b) → motive rest → motive (run ++ rest))
    (cs : List Char) : motive cs := by
  cases cs with
  | nil => exact nil
  | cons c cs =>
    have hsplit := List.takeWhile_append_dropWhile (p := (isBlank · == isBlank c)) (l := cs)
    have hlength : (cs.dropWhile (isBlank · == isBlank c)).length ≤ cs.length :=
      (List.dropWhile_suffix _).length_le
    rw [← hsplit, ← List.cons_append]
    refine run (isBlank c) _ _ (List.cons_ne_nil _ _) ?_ ?_ (run_induction nil run _)
    · rintro d (_ | ⟨_, hd⟩)
      · rfl
      · simpa using List.mem_takeWhile_imp hd
    · intro d hd
      have hnot := List.head?_dropWhile_not (isBlank · == isBlank c) cs
      rw [Option.mem_def.mp hd] at hnot
      simpa using hnot
termination_by cs.length
decreasing_by exact Nat.lt_succ_of_le hlength

/-! ### Collapsing a run -/

theorem Collapses.cons (h : Collapses run out) (hc : c ≠ '\n') :
    Collapses (c :: run) (c :: out) := by
  cases h with
  | kept hcount => exact .kept (by rwa [List.count_cons_of_ne hc])
  | collapsed hfront hback =>
    refine .collapsed (List.not_mem_cons_of_ne_of_not_mem hc.symm hfront) hback

/-- **A run of blanks is collapsed** as it should be. -/
theorem collapses_of_isBlank (h : ∀ c ∈ run, isBlank c) :
    Collapses run (collapseBlankLines run) := by
  induction run using collapseBlankLines.induct with
  | case1 =>
    rw [collapseBlankLines]
    exact .kept (by decide)
  | case2 rest indentation hrun ih =>
    have hrest : ∀ c ∈ rest, isBlank c := fun c hc => h c (List.mem_cons_of_mem _ hc)
    rw [collapseBlankLines_run hrun, List.dropWhile_eq_nil_iff.mpr hrest, collapseBlankLines,
      List.append_nil]
    rw [List.takeWhile_eq_self_iff.mpr hrest] at hrun
    obtain ⟨inside, rfl⟩ := exists_of_afterLastLineFeed?_eq_some hrun
    exact @Collapses.collapsed [] inside indentation List.not_mem_nil
      (afterLastLineFeed?_eq_some hrun).2
  | case3 rest hrun ih =>
    have hrest : ∀ c ∈ rest, isBlank c := fun c hc => h c (List.mem_cons_of_mem _ hc)
    have hmem : '\n' ∉ rest := by
      rwa [List.takeWhile_eq_self_iff.mpr hrest, afterLastLineFeed?_eq_none_iff] at hrun
    rw [collapseBlankLines_cons fun _ => hrun, collapseBlankLines_of_notMem hmem]
    exact .kept (by rw [List.count_cons_self, List.count_eq_zero_of_not_mem hmem]; decide)
  | case4 c rest hc ih =>
    rw [collapseBlankLines_cons fun heq => absurd heq hc]
    exact (ih fun d hd => h d (List.mem_cons_of_mem _ hd)).cons hc

theorem collapses_of_run (hrun : ∀ c ∈ run, isBlank c = b) :
    Collapses run (collapseBlankLines run) := by
  cases b with
  | true => exact collapses_of_isBlank hrun
  | false =>
    have hmem : '\n' ∉ run := fun hmem => absurd (hrun _ hmem) (by decide)
    rw [collapseBlankLines_of_notMem hmem]
    exact .kept (by rw [List.count_eq_zero_of_not_mem hmem]; decide)

/-! ### Collapsing a text -/

/-- A run is collapsed without what is behind it. -/
theorem collapseBlankLines_run_append (hrun : ∀ c ∈ run, isBlank c = b)
    (hrest : ∀ c ∈ rest.head?, isBlank c ≠ b) :
    collapseBlankLines (run ++ rest) = collapseBlankLines run ++ collapseBlankLines rest := by
  cases b with
  | true => exact collapseBlankLines_append_of_head? rest hrest run
  | false =>
    refine collapseBlankLines_append_of_getLast? run (fun c hc => ?_) rest
    rw [hrun c (List.mem_of_mem_getLast? hc)]
    decide

/-- **The runs of a text that has been collapsed** are those of the text, each of them
collapsed. -/
theorem forall₂_collapses_runs (cs : List Char) :
    List.Forall₂ Collapses (runs cs) (runs (collapseBlankLines cs)) := by
  induction cs using run_induction with
  | nil =>
    rw [collapseBlankLines]
    exact .nil
  | run b run rest hne hrun hrest ih =>
    have hne' : collapseBlankLines run ≠ [] := by
      rwa [ne_eq, ← List.head?_eq_none_iff, head?_collapseBlankLines, List.head?_eq_none_iff]
    have hrun' : ∀ c ∈ collapseBlankLines run, isBlank c = b :=
      fun c hc => hrun c (mem_of_mem_collapseBlankLines hc)
    have hrest' : ∀ c ∈ (collapseBlankLines rest).head?, isBlank c ≠ b := by
      rwa [head?_collapseBlankLines]
    rw [collapseBlankLines_run_append hrun hrest, runs_append hne hrun hrest,
      runs_append hne' hrun' hrest']
    exact .cons (collapses_of_run hrun) ih

/-- What is not blank stays, in its order. -/
theorem filter_collapseBlankLines (cs : List Char) :
    (collapseBlankLines cs).filter (!isBlank ·) = cs.filter (!isBlank ·) := by
  have hnil {xs : List Char} (h : ∀ c ∈ xs, isBlank c) : xs.filter (!isBlank ·) = [] :=
    List.filter_eq_nil_iff.mpr fun c hc => by simp [h c hc]
  induction cs using induction_on_blanks with
  | blank cs hblank =>
    rw [hnil hblank, hnil fun c hc => hblank c (mem_of_mem_collapseBlankLines hc)]
  | cut xs c ys hc hxs hys =>
    rw [collapseBlankLines_append_cons hc, List.filter_append, List.filter_cons, hxs, hys,
      List.filter_append, List.filter_cons]

/-- **Collapsing blank lines is exact.** It replaces by two line feeds what the pattern of blank
lines finds, and nothing else. In every run of blanks with two line feeds or more, these stand for
the part from the first one to the last one, and all other runs are left as they are. Hence what
is not blank stays in its order, and a text that has been collapsed stays. -/
theorem collapses_runs_collapseBlankLines (cs : List Char) :
    (∀ out, blankLines.Replaces ['\n', '\n'] cs out ↔ out = collapseBlankLines cs) ∧
      List.Forall₂ Collapses (runs cs) (runs (collapseBlankLines cs)) ∧
      (collapseBlankLines cs).filter (!isBlank ·) = cs.filter (!isBlank ·) ∧
      collapseBlankLines (collapseBlankLines cs) = collapseBlankLines cs :=
  ⟨fun _ => replaces_blankLines_iff, forall₂_collapses_runs cs, filter_collapseBlankLines cs,
    collapseBlankLines_collapseBlankLines cs⟩

/-- Two runs of blanks with more than spaces and line feeds in them. -/
example : collapseBlankLines "a \r\n\t\n\u00a0\n  b\r\n c".toList =
    "a \r\n\n  b\r\n c".toList := by
  decide +kernel

end Restyle.Text
