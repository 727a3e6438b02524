import Restyle.Proofs.Text.Search
import Restyle.Text.Blank

/-!
# Words and texts

A class list goes in as a text and comes out as one: it is cut into words, and words are joined
again with single spaces. What comes out is cut at the same places as what was joined, so that
the words of joined words are theirs (`Restyle.Text.words_unwords`), and joined **words**
(`Restyle.Text.IsWord`) are read back as they are.

A piece without blanks that occurs in a text occurs in one of its words
(`Restyle.Text.stringContains_iff_words`), so a search through a text asks nothing that could
not be asked of the words one by one.

All of this follows from two equations: a blank cuts a text in two
(`Restyle.Text.wordsOf_append_cons`), and a text without blanks is its only word
(`Restyle.Text.wordsOf_eq_singleton`).
-/

namespace Restyle.Text

/-! ### Cuts at blanks -/

theorem splitAt_eq_splitOnP (p : Char → Bool) (cs : List Char) :
    splitAt p cs = cs.splitOnP p := by
  induction cs with
  | nil => rfl
  | cons c cs ih =>
    rw [splitAt, List.splitOnP_cons_eq_if_modifyHead, ih]
    split
    · rfl
    · cases hcs : cs.splitOnP p with
      | nil => exact absurd hcs (List.splitOnP_ne_nil _ _)
      | cons piece pieces => rfl

/-- A blank cuts a text in two. -/
theorem wordsOf_append_cons {c : Char} (hc : isBlank c) (xs ys : List Char) :
    wordsOf (xs ++ c :: ys) = wordsOf xs ++ wordsOf ys := by
  simp only [wordsOf, splitAt_eq_splitOnP, List.splitOnP_append_cons xs ys hc,
    List.filter_append]

@[simp] theorem wordsOf_nil : wordsOf [] = [] := rfl

/-- A text without blanks is its only word. -/
theorem wordsOf_eq_singleton {cs : List Char} (hne : cs ≠ []) (h : ∀ c ∈ cs, ¬isBlank c) :
    wordsOf cs = [cs] := by
  rw [wordsOf, splitAt_eq_splitOnP,
    List.splitOnP_eq_singleton fun c hc => by simpa using h c hc]
  simpa using hne

/-- What holds of texts without blanks and goes over to two texts with a blank between them holds
of all texts. -/
theorem blank_induction {motive : List Char → Prop}
    (run : ∀ cs, (∀ c ∈ cs, ¬isBlank c) → motive cs)
    (cut : ∀ xs c ys, isBlank c → motive xs → motive ys → motive (xs ++ c :: ys))
    (cs : List Char) : motive cs := by
  by_cases h : ∃ c ∈ cs, isBlank c
  · obtain ⟨c, hmem, hc⟩ := h
    obtain ⟨xs, ys, hcs⟩ := List.append_of_mem hmem
    rw [hcs]
    exact cut xs c ys hc (blank_induction run cut xs) (blank_induction run cut ys)
  · exact run cs fun c hmem hc => h ⟨c, hmem, hc⟩
termination_by cs.length
decreasing_by
  all_goals
    rw [hcs, List.length_append, List.length_cons]
    omega

/-- A word holds something, and no blanks. -/
theorem of_mem_wordsOf {cs word : List Char} (h : word ∈ wordsOf cs) :
    word ≠ [] ∧ ∀ c ∈ word, ¬isBlank c := by
  induction cs using blank_induction with
  | run cs hcs =>
    by_cases hnil : cs = []
    · simp [hnil] at h
    · rw [wordsOf_eq_singleton hnil hcs, List.mem_singleton] at h
      exact ⟨h ▸ hnil, h ▸ hcs⟩
  | cut xs c ys hc ihxs ihys =>
    rw [wordsOf_append_cons hc, List.mem_append] at h
    exact h.elim ihxs ihys

/-- A piece without blanks stands in one of the words. -/
theorem infix_iff_wordsOf {piece : List Char} (hne : piece ≠ []) (h : ∀ c ∈ piece, ¬isBlank c)
    (cs : List Char) : piece <:+: cs ↔ ∃ word ∈ wordsOf cs, piece <:+: word := by
  induction cs using blank_induction with
  | run cs hcs =>
    by_cases hnil : cs = []
    · simp [hnil, hne]
    · simp [wordsOf_eq_singleton hnil hcs]
  | cut xs c ys hc ihxs ihys =>
    have hout : c ∉ piece := fun hmem => h c hmem hc
    rw [infix_append_cons_iff hout, ihxs, ihys, wordsOf_append_cons hc]
    simp only [List.mem_append, or_and_right, exists_or]

/-! ### Words of strings -/

/-- A text that is read as one word. -/
def IsWord (text : String) : Prop :=
  text ≠ "" ∧ ∀ c ∈ text.toList, ¬isBlank c

instance (text : String) : Decidable (IsWord text) :=
  decidable_of_iff (text ≠ "" ∧ (chars text).all (!isBlank ·)) (by simp [IsWord, toList_eq_chars])

variable {text word piece : String} {ws : List String}

theorem isWord_of_mem_words (h : word ∈ words text) : IsWord word := by
  obtain ⟨cs, hcs, rfl⟩ := List.mem_map.mp h
  obtain ⟨hne, hblanks⟩ := of_mem_wordsOf hcs
  exact ⟨by simpa using hne, by simpa using hblanks⟩

theorem IsWord.words_eq (h : IsWord word) : words word = [word] := by
  have hne : word.toList ≠ [] := by simpa using h.1
  rw [words, wordsOf_eq_singleton hne h.2, List.map_singleton, String.ofList_toList]

/-- A word that goes on without blanks is a word. -/
theorem IsWord.append {rest : String} (h : IsWord word) (hrest : ∀ c ∈ rest.toList, ¬isBlank c) :
    IsWord (word ++ rest) := by
  constructor
  · exact fun hempty => h.1 (String.append_eq_empty_iff.mp hempty).1
  · intro c hc
    rw [String.toList_append, List.mem_append] at hc
    exact hc.elim (h.2 c) (hrest c)

/-- The words of two texts with a space between them. -/
theorem words_append (x y : String) : words (x ++ " " ++ y) = words x ++ words y := by
  have hlist : (x ++ " " ++ y).toList = x.toList ++ ' ' :: y.toList := by simp
  rw [words, hlist, wordsOf_append_cons (by decide), List.map_append]
  rfl

theorem unwords_cons_cons (w w' : String) (ws : List String) :
    unwords (w :: w' :: ws) = w ++ " " ++ unwords (w' :: ws) := by
  apply String.toList_injective
  simp [unwords, String.toList_intercalate]

/-- **The words of joined texts** are the words of each of them. -/
theorem words_unwords (ws : List String) : words (unwords ws) = ws.flatMap words := by
  induction ws with
  | nil => rfl
  | cons w ws ih =>
    cases ws with
    | nil => simp [unwords]
    | cons w' ws => rw [unwords_cons_cons, words_append, ih, ← List.flatMap_cons]

/-- **Joined words are read back.** -/
theorem words_unwords_of_isWord (h : ∀ w ∈ ws, IsWord w) : words (unwords ws) = ws := by
  rw [words_unwords]
  induction ws with
  | nil => rfl
  | cons w ws ih =>
    obtain ⟨hw, hws⟩ := List.forall_mem_cons.mp h
    rw [List.flatMap_cons, hw.words_eq, ih hws, List.singleton_append]

/-- **A search for a word in a text** is a search in the words of the text. -/
theorem stringContains_iff_words (h : IsWord piece) :
    stringContains piece text ↔ ∃ word ∈ words text, stringContains piece word := by
  have hne : piece.toList ≠ [] := by simpa using h.1
  rw [stringContains_iff, infix_iff_wordsOf hne h.2]
  simp only [words, List.mem_map, exists_exists_and_eq_and, stringContains_iff,
    String.toList_ofList]

end Restyle.Text
