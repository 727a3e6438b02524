import Mathlib.Tactic.SplitIfs
import Restyle.Css.Location

/-!
# Lines and columns, counted

A location is worked out in one pass over the text in front of it. What it comes to can be said of
that text as a whole (`Restyle.Css.Location.IsBehind`). The line tells how many line ends are in
front, a carriage return and the line feed behind it being one. The column tells how many UTF-16
units are behind the last of them.
-/

namespace Restyle.Css

variable {location : Location} {cs : List Char}

/-- The number of UTF-16 units of a text. -/
def unitsIn : List Char → Nat
  | [] => 0
  | c :: cs => unitsOf c + unitsIn cs

/-- How often a carriage return and a line feed are next to each other. -/
def pairsIn (cs : List Char) : Nat :=
  (cs.zip cs.tail).count ('\r', '\n')

/-- **A location is right behind a text.** -/
structure Location.IsBehind (location : Location) (front : List Char) : Prop where
  line : location.line + pairsIn front = 1 + front.countP isNewline
  column : ∃ lines last, front = lines ++ last ∧ (∀ c ∈ lines.getLast?, isNewline c) ∧
    (∀ c ∈ last, ¬isNewline c) ∧ location.column = 1 + unitsIn last

theorem pairsIn_pair (cs : List Char) : pairsIn ('\r' :: '\n' :: cs) = pairsIn cs + 1 := by
  cases cs <;> simp [pairsIn]

/-- A character that does not start a pair. -/
theorem pairsIn_cons {c : Char} (h : ∀ rest, c = '\r' → cs ≠ '\n' :: rest) :
    pairsIn (c :: cs) = pairsIn cs := by
  cases cs with
  | nil => rfl
  | cons d rest =>
    have hpair : (c, d) ≠ ('\r', '\n') := by
      rintro ⟨⟩
      exact h rest rfl rfl
    simp [pairsIn, hpair]

theorem line_after (location : Location) (cs : List Char) :
    (location.after cs).line + pairsIn cs = location.line + cs.countP isNewline := by
  fun_induction Location.after location cs with
  | case1 => rfl
  | case2 location rest ih =>
    rw [pairsIn_pair, List.countP_cons_of_pos rfl, List.countP_cons_of_pos rfl]
    dsimp only at ih
    omega
  | case3 location c rest hpair hnewline ih =>
    rw [pairsIn_cons hpair, List.countP_cons_of_pos hnewline, ih]
    dsimp only
    omega
  | case4 location c rest hpair hnewline ih =>
    rw [pairsIn_cons hpair, List.countP_cons_of_neg hnewline, ih]

/-- Behind a text without line ends, the line is the same; else a line end tells where it starts. -/
theorem column_after (location : Location) (cs : List Char) :
    (∀ c ∈ cs, ¬isNewline c) ∧ (location.after cs).column = location.column + unitsIn cs ∨
      ∃ lines mark last, cs = lines ++ mark :: last ∧ isNewline mark ∧
        (∀ c ∈ last, ¬isNewline c) ∧ (location.after cs).column = 1 + unitsIn last := by
  fun_induction Location.after location cs with
  | case1 => exact .inl ⟨by simp, rfl⟩
  | case2 location rest ih =>
    rcases ih with ⟨hnone, hcolumn⟩ | ⟨lines, mark, last, rfl, hmark, hlast, hcolumn⟩
    · exact .inr ⟨['\r'], '\n', rest, rfl, rfl, hnone, hcolumn⟩
    · exact .inr ⟨'\r' :: '\n' :: lines, mark, last, rfl, hmark, hlast, hcolumn⟩
  | case3 location c rest _ hnewline ih =>
    rcases ih with ⟨hnone, hcolumn⟩ | ⟨lines, mark, last, rfl, hmark, hlast, hcolumn⟩
    · exact .inr ⟨[], c, rest, rfl, hnewline, hnone, hcolumn⟩
    · exact .inr ⟨c :: lines, mark, last, rfl, hmark, hlast, hcolumn⟩
  | case4 location c rest _ hnewline ih =>
    rcases ih with ⟨hnone, hcolumn⟩ | ⟨lines, mark, last, rfl, hmark, hlast, hcolumn⟩
    · refine .inl ⟨List.forall_mem_cons.mpr ⟨hnewline, hnone⟩, hcolumn.trans ?_⟩
      simp [unitsIn, Nat.add_assoc]
    · exact .inr ⟨c :: lines, mark, last, rfl, hmark, hlast, hcolumn⟩

/-- **The location behind a text is worked out rightly.** -/
theorem isBehind_after (front : List Char) : (Location.after {} front).IsBehind front where
  line := line_after {} front
  column := by
    rcases column_after {} front with
      ⟨hnone, hcolumn⟩ | ⟨lines, mark, last, rfl, hmark, hlast, hcolumn⟩
    · exact ⟨[], front, rfl, by simp, hnone, hcolumn⟩
    · exact ⟨lines ++ [mark], last, by simp, by simpa using hmark, hlast, hcolumn⟩

end Restyle.Css
