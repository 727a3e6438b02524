import Mathlib.Data.List.Forall2
import Restyle.Proofs.Class.Reading

/-!
# A prefix is written once

What `Restyle.Class.addPrefix` does to a utility is told by `Restyle.Class.TakesMark`: a utility
that **carries** the mark stays (`Restyle.Class.Carries`), and so does one that is not there; any
other one takes the mark at its start, behind the hyphen if it is negative. Whichever it is, it
carries the mark afterwards.

That a second run finds nothing to do is more than that, for it cuts the classes anew, and where a
class is cut depends on all the brackets in it, matching or not. The device is that a mark is
**plain**, as is the hyphen in front of it: what is plain moves no cut
(`Restyle.Class.Token.IsCut.withUtility`). So the second run reads the variants and the opacity
that the first one read, and the utility that it wrote (`Restyle.Class.IsMarkedForm`).
-/

namespace Restyle.Class

open Restyle.Text

/-! ### Marks -/

/-- **A mark** to be written in front of utilities: a word that has neither brackets nor colons
nor slashes, and no hyphen at its start. Words of letters, digits, hyphens and underscores are
such. -/
structure IsMark (mark : String) : Prop where
  isWord : IsWord mark
  isPlain : IsPlain mark.toList
  head : mark.toList.head? ≠ some '-'

instance (mark : String) : Decidable (IsMark mark) :=
  decidable_of_iff (IsWord mark ∧ IsPlain mark.toList ∧ mark.toList.head? ≠ some '-')
    ⟨fun h => ⟨h.1, h.2.1, h.2.2⟩, fun h => ⟨h.isWord, h.isPlain, h.head⟩⟩

/-- A utility **carries** a mark if it begins with it, behind its hyphen if it is negative. -/
def Carries (mark utility : String) : Prop :=
  ∃ rest, utility = mark ++ rest ∨ utility = "-" ++ mark ++ rest

/-- **What becomes of a utility** that is to carry a mark. -/
inductive TakesMark (mark : String) : (utility out : String) → Prop
  | missing : TakesMark mark "" ""
  | carried {utility} : Carries mark utility → TakesMark mark utility utility
  | negative {rest} : ¬Carries mark ("-" ++ rest) →
      TakesMark mark ("-" ++ rest) ("-" ++ mark ++ rest)
  | positive {utility} : utility ≠ "" → (∀ rest, utility ≠ "-" ++ rest) → ¬Carries mark utility →
      TakesMark mark utility (mark ++ utility)

/-- **What becomes of a class**: its utility takes the mark, under the same variants and with the
same opacity. -/
def IsMarkedForm (mark text out : String) : Prop :=
  ∃ utility, TakesMark mark (Token.ofString text).utility utility ∧
    Token.ofString out = (Token.ofString text).withUtility utility

/-! ### Utilities -/

section Utilities

variable {mark utility rest out : String}

/-- A mark is no beginning of a negative utility. -/
theorem IsMark.append_ne (h : IsMark mark) (rest more : String) : mark ++ rest ≠ "-" ++ more := by
  intro heq
  have hlist : mark.toList ++ rest.toList = '-' :: more.toList := by
    simpa using congrArg String.toList heq
  rcases hmark : mark.toList with _ | ⟨c, cs⟩
  · exact h.isWord.1 (by simpa using hmark)
  · rw [hmark, List.cons_append] at hlist
    exact h.head (by rw [hmark, (List.cons.inj hlist).1]; rfl)

theorem IsMark.carries_negative_iff (h : IsMark mark) :
    Carries mark ("-" ++ rest) ↔ stringStartsWith mark rest := by
  rw [stringStartsWith_iff_exists]
  refine exists_congr fun more => ?_
  rw [String.append_assoc, String.append_right_inj]
  exact or_iff_right (h.append_ne more rest).symm

theorem carries_iff_of_not_negative (h : ∀ rest, utility ≠ "-" ++ rest) :
    Carries mark utility ↔ stringStartsWith mark utility := by
  rw [stringStartsWith_iff_exists]
  refine exists_congr fun more => or_iff_left ?_
  rw [String.append_assoc]
  exact h (mark ++ more)

/-- **A utility stays or takes the mark**, and it stays if it carries the mark or is not there. -/
theorem IsMark.prefixUtility?_spec (h : IsMark mark) (utility : String) :
    (utility = "" ∨ Carries mark utility) ∧ prefixUtility? mark utility = none ∨
      ¬(utility = "" ∨ Carries mark utility) ∧
        ∃ out ∈ prefixUtility? mark utility, TakesMark mark utility out := by
  rw [prefixUtility?]
  split_ifs with hempty
  · obtain rfl : utility = "" := by simpa using hempty
    exact .inl ⟨.inl rfl, rfl⟩
  have hne : utility ≠ "" := by simpa using hempty
  rcases hsign : stripString? "-" utility with _ | rest
  · have hpositive : ∀ rest, utility ≠ "-" ++ rest := by
      rintro rest rfl
      rw [stripString?_eq_some_iff.mpr rfl] at hsign
      cases hsign
    have hcarries : Carries mark utility ↔ stringStartsWith mark utility :=
      carries_iff_of_not_negative hpositive
    by_cases hstarts : stringStartsWith mark utility
    · exact .inl ⟨.inr (hcarries.mpr hstarts), if_pos hstarts⟩
    · have hnot := mt hcarries.mp hstarts
      refine .inr ⟨not_or.mpr ⟨hne, hnot⟩, mark ++ utility, ?_, .positive hne hpositive hnot⟩
      simp [hstarts]
  · obtain rfl := stripString?_eq_some_iff.mp hsign
    by_cases hstarts : stringStartsWith mark rest
    · exact .inl ⟨.inr (h.carries_negative_iff.mpr hstarts), if_pos hstarts⟩
    · have hnot := mt h.carries_negative_iff.mp hstarts
      exact .inr ⟨not_or.mpr ⟨hne, hnot⟩, _, if_neg hstarts, .negative hnot⟩

theorem IsMark.takesMark (h : IsMark mark) (utility : String) :
    TakesMark mark utility ((prefixUtility? mark utility).getD utility) := by
  rcases h.prefixUtility?_spec utility with ⟨rfl | hcarries, hnone⟩ | ⟨-, out, hout, htakes⟩
  · rw [hnone]
    exact .missing
  · rw [hnone]
    exact .carried hcarries
  · rw [Option.mem_def.mp hout]
    exact htakes

/-- There is nothing to write where the mark is. -/
theorem IsMark.prefixUtility?_eq_none (h : IsMark mark)
    (hcarries : utility = "" ∨ Carries mark utility) : prefixUtility? mark utility = none := by
  rcases h.prefixUtility?_spec utility with ⟨-, hnone⟩ | ⟨hnot, -⟩
  · exact hnone
  · exact absurd hcarries hnot

/-- What has taken the mark carries it, if there is anything to carry it. -/
theorem TakesMark.carries (h : TakesMark mark utility out) : out = "" ∨ Carries mark out := by
  cases h with
  | missing => exact .inl rfl
  | carried hcarries => exact .inr hcarries
  | @negative rest _ => exact .inr ⟨rest, .inr rfl⟩
  | positive _ _ _ => exact .inr ⟨utility, .inl rfl⟩

/-- A utility stays, or a plain word is written in place of its beginning. -/
theorem TakesMark.exists_beginning (h : TakesMark mark utility out) (hmark : IsMark mark) :
    out = utility ∨ ∃ front front' rest, utility = front ++ rest ∧ out = front' ++ rest ∧
      IsPlain front.toList ∧ IsPlain front'.toList ∧ IsWord front' := by
  cases h with
  | missing => exact .inl rfl
  | carried _ => exact .inl rfl
  | @negative rest _ =>
    have hword : IsWord "-" := by decide
    have hplain : IsPlain "-".toList := by decide
    refine .inr ⟨"-", "-" ++ mark, rest, rfl, rfl, hplain, ?_, hword.append hmark.isWord.2⟩
    rw [String.toList_append]
    exact List.forall_mem_append.mpr ⟨hplain, hmark.isPlain⟩
  | positive _ _ _ =>
    exact .inr ⟨"", mark, utility, by simp, rfl, by decide, hmark.isPlain, hmark.isWord⟩

end Utilities

/-! ### Classes -/

section Classes

variable {mark text : String}

theorem Token.withUtility_self (token : Token) : token.withUtility token.utility = token := rfl

theorem prefixClass_eq (mark text : String) :
    prefixClass mark text = ((Token.ofString text).withUtility
      ((prefixUtility? mark (Token.ofString text).utility).getD
        (Token.ofString text).utility)).render := by
  rw [prefixClass]
  rcases prefixUtility? mark (Token.ofString text).utility with _ | utility
  · rw [Option.getD_none, Token.withUtility_self, Token.render_read]
  · rw [Option.getD_some]

/-- **A class is read again with what was written.** -/
theorem isMarkedForm_prefixClass (h : IsMark mark) (text : String) :
    IsMarkedForm mark text (prefixClass mark text) := by
  have htakes := h.takesMark (Token.ofString text).utility
  refine ⟨_, htakes, ?_⟩
  rw [prefixClass_eq]
  rcases htakes.exists_beginning h with
    hsame | ⟨front, front', rest, hfront, hout, hplain, hplain', -⟩
  · rw [hsame, Token.withUtility_self, Token.render_read]
  · have hread : (Token.ofString text).utility.toList = front.toList ++ rest.toList := by
      rw [hfront, String.toList_append]
    refine Token.IsCut.ofString_render ?_
    refine (Token.isCut_ofString text).withUtility hplain hread hplain' ?_
    rw [hout, String.toList_append]

/-- **A class is prefixed once.** -/
theorem prefixClass_prefixClass (h : IsMark mark) (text : String) :
    prefixClass mark (prefixClass mark text) = prefixClass mark text := by
  obtain ⟨utility, htakes, hread⟩ := isMarkedForm_prefixClass h text
  have hutility : (Token.ofString (prefixClass mark text)).utility = utility := by
    rw [hread]
    rfl
  rw [prefixClass_eq mark (prefixClass mark text), hutility,
    h.prefixUtility?_eq_none htakes.carries, Option.getD_none, ← hutility,
    Token.withUtility_self, Token.render_read]

theorem isWord_prefixClass (h : IsMark mark) (htext : IsWord text) :
    IsWord (prefixClass mark text) := by
  rw [← Token.render_read text] at htext
  rw [prefixClass_eq]
  rcases (h.takesMark (Token.ofString text).utility).exists_beginning h with
    hsame | ⟨front, front', rest, hfront, hout, -, -, hword⟩
  · rw [hsame]
    exact htext
  · rw [hout]
    exact Token.isWord_withBeginning htext hfront hword

/-! ### Class lists -/

theorem addPrefix_eq (h : IsMark mark) (text : String) :
    addPrefix text mark = unwords ((words text).map (prefixClass mark)) :=
  if_neg (by simpa using h.isWord.1)

/-- The classes stay in their order, each with the mark. -/
theorem words_addPrefix (h : IsMark mark) (text : String) :
    words (addPrefix text mark) = (words text).map (prefixClass mark) := by
  rw [addPrefix_eq h]
  refine words_unwords_of_isWord fun out hout => ?_
  obtain ⟨c, hc, rfl⟩ := List.mem_map.mp hout
  exact isWord_prefixClass h (isWord_of_mem_words hc)

/-- **Prefixing a second time changes nothing, and prefixing touches the utilities only.** As many
classes come out as went in, in the same order. Each comes out with its variants and its opacity,
and with its utility as it was or with the mark at its start, behind the hyphen of a negative
one. -/
theorem addPrefix_addPrefix (h : IsMark mark) (text : String) :
    addPrefix (addPrefix text mark) mark = addPrefix text mark ∧
      List.Forall₂ (IsMarkedForm mark) (words text) (words (addPrefix text mark)) := by
  have hwords := words_addPrefix h text
  constructor
  · have htwice : (words (addPrefix text mark)).map (prefixClass mark) =
        (words text).map (prefixClass mark) := by
      rw [hwords, List.map_map]
      exact List.map_congr_left fun c _ => by
        rw [Function.comp_apply, prefixClass_prefixClass h]
    calc addPrefix (addPrefix text mark) mark
        = unwords ((words (addPrefix text mark)).map (prefixClass mark)) := addPrefix_eq h _
      _ = unwords ((words text).map (prefixClass mark)) := congrArg unwords htwice
      _ = addPrefix text mark := (addPrefix_eq h text).symm
  · rw [hwords, List.forall₂_map_right_iff]
    exact List.forall₂_same.mpr fun c _ => isMarkedForm_prefixClass h c

/-- A negative utility behind a variant with a bracket too many, and a lone hyphen. -/
theorem addPrefix_addPrefix_negative :
    IsMark "tw-" ∧ addPrefix "a]b:-mt-2/50  -" "tw-" = "a]b:-tw-mt-2/50 -tw-" ∧
      addPrefix "a]b:-tw-mt-2/50 -tw-" "tw-" = "a]b:-tw-mt-2/50 -tw-" ∧
      List.Forall₂ (IsMarkedForm "tw-") (words "a]b:-mt-2/50  -")
        (words "a]b:-tw-mt-2/50 -tw-") := by
  have hmark : IsMark "tw-" := by decide
  have hout : addPrefix "a]b:-mt-2/50  -" "tw-" = "a]b:-tw-mt-2/50 -tw-" := by decide +kernel
  have h := addPrefix_addPrefix hmark "a]b:-mt-2/50  -"
  rw [hout] at h
  exact ⟨hmark, hout, h⟩

end Classes

end Restyle.Class
