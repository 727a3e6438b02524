import Mathlib.Data.List.DropRight
import Restyle.Text.Blank

/-!
# Trimming

What is dropped at the ends of a text, and that there is nothing more to drop afterwards.
-/

namespace Restyle.Text

theorem dropEndWhile_eq_rdropWhile (p : Char → Bool) (cs : List Char) :
    dropEndWhile p cs = cs.rdropWhile p := rfl

/-! ### Up to a character that is kept -/

section Kept

variable {p : Char → Bool} {c : Char}

theorem takeWhile_append_cons (h : ¬p c) (xs ys : List Char) :
    (xs ++ c :: ys).takeWhile p = xs.takeWhile p := by
  induction xs with
  | nil => simp [h]
  | cons x xs ih => rw [List.cons_append, List.takeWhile_cons, List.takeWhile_cons, ih]

theorem dropWhile_append_cons (h : ¬p c) (xs ys : List Char) :
    (xs ++ c :: ys).dropWhile p = xs.dropWhile p ++ c :: ys := by
  induction xs with
  | nil => simp [h]
  | cons x xs ih =>
    rw [List.cons_append, List.dropWhile_cons, List.dropWhile_cons, ih]
    split <;> rfl

theorem dropEndWhile_append_cons (h : ¬p c) (xs ys : List Char) :
    dropEndWhile p (xs ++ c :: ys) = xs ++ c :: dropEndWhile p ys := by
  have hreverse : (xs ++ c :: ys).reverse = ys.reverse ++ c :: xs.reverse := by simp
  rw [dropEndWhile, hreverse, dropWhile_append_cons h]
  simp [dropEndWhile]

end Kept

theorem trimEnd_append_cons {c : Char} (h : ¬isBlank c) (xs ys : List Char) :
    trimEnd (xs ++ c :: ys) = xs ++ c :: trimEnd ys :=
  dropEndWhile_append_cons h xs ys

/-! ### Blanks at the ends -/

theorem trimEnd_append_blanks {xs ys : List Char} (hxs : ∀ c ∈ xs.getLast?, ¬isBlank c)
    (hys : ∀ c ∈ ys, isBlank c) : trimEnd (xs ++ ys) = xs := by
  have hnil : trimEnd ys = [] := List.rdropWhile_eq_nil_iff.mpr hys
  rcases List.eq_nil_or_concat xs with rfl | ⟨init, c, rfl⟩
  · exact hnil
  · rw [List.concat_eq_append, List.append_assoc, List.singleton_append,
      trimEnd_append_cons (hxs c (by simp)), hnil]

theorem trimStart_blanks_append {xs ys : List Char} (hxs : ∀ c ∈ xs, isBlank c)
    (hys : ∀ c ∈ ys.head?, ¬isBlank c) : trimStart (xs ++ ys) = ys := by
  rw [trimStart, List.dropWhile_append_of_pos hxs]
  cases ys with
  | nil => rfl
  | cons c ys => exact List.dropWhile_cons_of_neg (hys c rfl)

/-- There is no blank in front of what is trimmed. -/
theorem not_isBlank_head?_trimStart (cs : List Char) :
    ∀ c ∈ (trimStart cs).head?, ¬isBlank c := by
  intro c hc
  have hnot := List.head?_dropWhile_not isBlank cs
  rw [trimStart, Option.mem_def] at hc
  rw [hc] at hnot
  simpa using hnot

/-- There is no blank behind what is trimmed. -/
theorem not_isBlank_getLast?_trimEnd (cs : List Char) :
    ∀ c ∈ (trimEnd cs).getLast?, ¬isBlank c := by
  intro c hc
  rw [trimEnd, dropEndWhile, List.getLast?_reverse] at hc
  exact not_isBlank_head?_trimStart cs.reverse c hc

/-! ### Dropping again -/

/-- Where there is nothing to drop in front of a text, there is nothing to drop in front of
the beginning of that text. -/
theorem dropWhile_of_prefix {p : Char → Bool} {cs ds : List Char} (h : ds <+: cs)
    (hcs : cs.dropWhile p = cs) : ds.dropWhile p = ds := by
  obtain ⟨rest, rfl⟩ := h
  cases ds with
  | nil => rfl
  | cons d ds =>
    have hd := List.dropWhile_eq_self_iff.mp hcs (by simp)
    exact List.dropWhile_cons_of_neg (by simpa using hd)

@[simp] theorem trimEnd_trimEnd (cs : List Char) : trimEnd (trimEnd cs) = trimEnd cs :=
  List.rdropWhile_idempotent isBlank cs

@[simp] theorem trimStart_trimStart (cs : List Char) : trimStart (trimStart cs) = trimStart cs :=
  List.dropWhile_idempotent isBlank cs

@[simp] theorem trimStart_trim (cs : List Char) : trimStart (trim cs) = trim cs :=
  dropWhile_of_prefix (List.rdropWhile_prefix isBlank _) (trimStart_trimStart cs)

@[simp] theorem trim_trim (cs : List Char) : trim (trim cs) = trim cs := by
  rw [trim, trimStart_trim, trim, trimEnd_trimEnd]

/-- A text between two characters that are not blank has nothing to trim. -/
theorem trim_between {c d : Char} (hc : ¬isBlank c) (hd : ¬isBlank d) (cs : List Char) :
    trim (c :: (cs ++ [d])) = c :: (cs ++ [d]) := by
  rw [trim, trimStart, List.dropWhile_cons_of_neg hc, trimEnd, ← List.cons_append]
  exact List.rdropWhile_concat_neg isBlank _ d hd

end Restyle.Text
