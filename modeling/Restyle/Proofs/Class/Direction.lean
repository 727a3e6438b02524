import Restyle.Proofs.Class.Reading
import Restyle.Proofs.Order.Distinct

/-!
# Directions, class by class

What is written in place of a physical side, and every helper, begins with a text that no entry
of the tables applies to: it differs from the beginning of each physical utility at a place that
both have (`Restyle.Text.differ`). One look at the tables tells so
(`Restyle.Class.directions_spec`), and that settles what becomes of a class.

* A class that was redirected is read again with the parts that were written
  (`Restyle.Class.logicalClass_cases`), and is **settled** (`Restyle.Class.IsSettled`): there is
  nothing left to redirect in it. So is every helper (`Restyle.Class.isSettled_of_asksFor`).
* What a class of the list becomes, and the helpers it asks for (`Restyle.Class.AsksFor`),
  depend on that class alone (`Restyle.Class.mem_words_redirect`). The pieces that are looked for
  in the whole text are pieces of words.

Together: a list is redirected class by class and in one pass
(`Restyle.Class.redirect_classwise`).
-/

namespace Restyle.Class

open Restyle.Text

/-! ### The tables -/

/-- The two sides of a mapping: the physical beginning and the logical one. -/
def Mapping.sides : Mapping → String × String
  | .stem physical logical => (physical, logical)
  | .whole physical logical => (physical, logical)

/-- All that names a physical side, with what names the logical one. -/
def directions : List (String × String) :=
  mappings.map Mapping.sides ++ sideSlides.map Prod.snd

/-- What a shift along the x axis begins with. -/
def shiftStems : List String := ["-translate-x-", "translate-x-"]

/-- What a utility begins with that has a counterpart for text from right to left. -/
def counterpartStems : List String :=
  shiftStems ++ mirrored.map Prod.fst

/-- What the utility of a helper begins with. -/
def helperStems : List String :=
  counterpartStems ++ ["space-x-reverse", "divide-x-reverse"]

/-- What is written without a look at the tables: the utilities of the helpers, and those of the
flip marker and its class. -/
def sideless : List String :=
  helperStems ++ ["rotate-180", "cn-rtl-flip"]

/-- What redirecting writes in front of a rest: the logical sides, and what has no side. -/
def written : List String :=
  directions.map Prod.snd ++ sideless

/-- **One look at the tables**: what they hold is plain, nothing that is written is physical, and
what has no side is not logical either. -/
theorem directions_spec :
    ∀ side ∈ directions, IsPlain side.1.toList ∧ (IsPlain side.2.toList ∧ IsWord side.2) ∧
      (∀ text ∈ written, differ side.1.toList text.toList) ∧
      ∀ text ∈ sideless, differ side.2.toList text.toList := by
  simp only [toList_eq_chars]
  decide

theorem counterpartStems_spec :
    ∀ stem ∈ counterpartStems, IsPlain stem.toList ∧ IsWord stem := by
  decide

theorem reverseHelpers_isWord : ∀ pair ∈ reverseHelpers, IsWord pair.1 ∧ IsWord pair.2 := by
  decide

/-- A utility that begins with nothing physical. -/
def NamesNoSide (utility : String) : Prop :=
  ∀ side ∈ directions, ¬side.1.toList <+: utility.toList

theorem namesNoSide_of_written {text utility : String} (htext : text ∈ written)
    (h : text.toList <+: utility.toList) : NamesNoSide utility := by
  intro side hside hphysical
  obtain ⟨-, -, hdiffer, -⟩ := directions_spec side hside
  exact not_prefix_both_of_differ (hdiffer text htext) ⟨hphysical, h⟩

/-! ### The utility in place of another -/

section Utilities

variable {token : Token} {utility : String}

theorem exists_of_logicalSlide? (h : logicalSlide? token = some utility) :
    ∃ slide ∈ sideSlides, ∃ rest,
      token.utility = slide.2.1 ++ rest ∧ utility = slide.2.2 ++ rest := by
  obtain ⟨slide, hslide, hsome⟩ := List.exists_of_findSome?_eq_some h
  dsimp only at hsome
  split_ifs at hsome
  obtain ⟨rest, hrest, rfl⟩ := Option.map_eq_some_iff.mp hsome
  exact ⟨slide, hslide, rest, stripString?_eq_some_iff.mp hrest, rfl⟩

theorem Mapping.of_redirect?_eq_some {mapping : Mapping} {underSide : Bool} {text : String}
    (h : mapping.redirect? underSide text = some (some utility)) :
    ∃ rest, text = mapping.sides.1 ++ rest ∧ utility = mapping.sides.2 ++ rest := by
  cases mapping with
  | stem physical logical =>
    obtain ⟨rest, hrest, hif⟩ := Option.map_eq_some_iff.mp h
    split_ifs at hif
    exact ⟨rest, stripString?_eq_some_iff.mp hrest, (Option.some.inj hif).symm⟩
  | whole physical logical =>
    rw [redirect?] at h
    split_ifs at h with heq
    obtain rfl := Option.some.inj (Option.some.inj h)
    exact ⟨"", by simpa [sides] using heq, by simp [sides]⟩

/-- **What is written in place of a utility** goes on as the utility does, behind a logical side
in place of a physical one. -/
theorem exists_of_logicalUtility? (h : logicalUtility? token = some utility) :
    ∃ side ∈ directions, ∃ rest, token.utility = side.1 ++ rest ∧ utility = side.2 ++ rest := by
  rw [logicalUtility?] at h
  cases hslide : logicalSlide? token with
  | some slid =>
    simp only [hslide, Option.some.injEq] at h
    obtain ⟨slide, hmem, rest, htoken, hutility⟩ := exists_of_logicalSlide? hslide
    exact ⟨slide.2, by simpa [directions] using .inr ⟨slide.1, hmem⟩, rest, htoken, h ▸ hutility⟩
  | none =>
    simp only [hslide, Option.join_eq_some_iff] at h
    obtain ⟨mapping, hmem, hsome⟩ := List.exists_of_findSome?_eq_some h
    obtain ⟨rest, htoken, hutility⟩ := Mapping.of_redirect?_eq_some hsome
    exact ⟨mapping.sides, List.mem_append_left _ (List.mem_map_of_mem hmem), rest, htoken,
      hutility⟩

/-- A mapping that leaves a position under a side variant alone. -/
def Mapping.isPosition : Mapping → Bool
  | .stem physical _ => positions.contains physical
  | .whole _ _ => false

theorem differ_positions : ∀ position ∈ positions,
    (∀ mapping ∈ mappings, mapping.isPosition ∨
      differ mapping.sides.1.toList position.toList) ∧
    ∀ slide ∈ sideSlides, differ slide.2.1.toList position.toList := by
  simp only [toList_eq_chars]
  decide

theorem Mapping.redirect?_of_isPosition {mapping : Mapping} (h : mapping.isPosition)
    (text : String) : mapping.redirect? true text ≠ some (some utility) := by
  cases mapping with
  | stem physical logical =>
    have hcontains : positions.contains physical := h
    simp only [redirect?, hcontains, Bool.true_and, if_true]
    simp
  | whole physical logical => cases h

/-- **A position under a side variant stays physical.** -/
theorem logicalUtility?_position {position : String} (hposition : position ∈ positions)
    (hutility : position.toList <+: token.utility.toList)
    (hside : sideVariants.any (hasVariant token)) : logicalUtility? token = none := by
  obtain ⟨hmappings, hslides⟩ := differ_positions position hposition
  have hdiffer {physical rest : String} (h : differ physical.toList position.toList) :
      token.utility ≠ physical ++ rest := by
    intro heq
    refine not_prefix_both_of_differ h ⟨?_, hutility⟩
    exact ⟨rest.toList, by rw [heq, String.toList_append]⟩
  have hslide : logicalSlide? token = none := by
    rw [Option.eq_none_iff_forall_ne_some]
    intro utility hsome
    obtain ⟨slide, hslide, rest, htoken, -⟩ := exists_of_logicalSlide? hsome
    exact hdiffer (hslides slide hslide) htoken
  rw [Option.eq_none_iff_forall_ne_some]
  intro utility hsome
  simp only [logicalUtility?, hslide, hside, Option.join_eq_some_iff] at hsome
  obtain ⟨mapping, hmem, hsome⟩ := List.exists_of_findSome?_eq_some hsome
  rcases hmappings mapping hmem with hposition | hother
  · exact Mapping.redirect?_of_isPosition hposition _ hsome
  · obtain ⟨rest, htoken, -⟩ := Mapping.of_redirect?_eq_some hsome
    exact hdiffer hother htoken

/-- Nothing is written in place of a utility that begins with nothing physical. -/
theorem logicalUtility?_eq_none (h : NamesNoSide token.utility) :
    logicalUtility? token = none := by
  rw [Option.eq_none_iff_forall_ne_some]
  intro utility hsome
  obtain ⟨side, hside, rest, htoken, -⟩ := exists_of_logicalUtility? hsome
  exact h side hside ⟨rest.toList, by rw [htoken, String.toList_append]⟩

end Utilities

/-! ### What becomes of a class -/

/-- A class is **settled** if it is not the flip marker and there is nothing to redirect in it. -/
def IsSettled (text : String) : Prop :=
  text ≠ flipMarker ∧ logicalUtility? (Token.ofString text) = none

/-- A class is the **logical form** of another one: under the same variants and with the same
opacity, its utility names the logical side in place of the physical one. -/
def IsLogicalForm (text out : String) : Prop :=
  ∃ side ∈ directions, ∃ rest, (Token.ofString text).utility = side.1 ++ rest ∧
    Token.ofString out = (Token.ofString text).withUtility (side.2 ++ rest)

/-- A class that places an element against a side, under a variant that has decided the side. -/
def IsSidePosition (text : String) : Prop :=
  sideVariants.any (hasVariant (Token.ofString text)) ∧
    ∃ position ∈ positions, position.toList <+: (Token.ofString text).utility.toList

section Classes

variable {text out helper : String}

theorem utility_flipMarker : (Token.ofString flipMarker).utility = flipMarker := by
  decide

/-- A class is settled if its utility begins with what is written. -/
theorem isSettled_of_written {beginning : String} (hwritten : beginning ∈ written)
    (hmarker : differ beginning.toList flipMarker.toList)
    (h : beginning.toList <+: (Token.ofString text).utility.toList) : IsSettled text := by
  constructor
  · rintro rfl
    rw [utility_flipMarker] at h
    exact not_prefix_of_differ hmarker [] (by simpa using h)
  · exact logicalUtility?_eq_none (namesNoSide_of_written hwritten h)

theorem IsSettled.logicalClass_eq (h : IsSettled text) : logicalClass text = text := by
  simp only [logicalClass, if_neg h.1, h.2]

theorem isLogicalForm_logicalClass {utility : String} (hmarker : text ≠ flipMarker)
    (h : logicalUtility? (Token.ofString text) = some utility) :
    logicalClass text = ((Token.ofString text).withUtility utility).render ∧
      IsLogicalForm text (logicalClass text) := by
  have hclass : logicalClass text = ((Token.ofString text).withUtility utility).render := by
    simp only [logicalClass, if_neg hmarker, h]
  obtain ⟨side, hside, rest, htext, rfl⟩ := exists_of_logicalUtility? h
  obtain ⟨hphysical, ⟨hlogical, -⟩, -, -⟩ := directions_spec side hside
  have hcut : ((Token.ofString text).withUtility (side.2 ++ rest)).IsCut :=
    (Token.isCut_ofString text).withUtility hphysical (by rw [htext, String.toList_append])
      hlogical (String.toList_append ..)
  exact ⟨hclass, side, hside, rest, htext, by rw [hclass, hcut.ofString_render]⟩

/-- **What becomes of a class**: the flip marker is replaced, a settled class stays, and all
others get their logical form. -/
theorem logicalClass_cases (text : String) :
    (text = flipMarker ∧ logicalClass text = flipClass) ∨
      (IsSettled text ∧ logicalClass text = text) ∨ IsLogicalForm text (logicalClass text) := by
  by_cases hmarker : text = flipMarker
  · exact .inl ⟨hmarker, if_pos hmarker⟩
  · cases hutility : logicalUtility? (Token.ofString text) with
    | none =>
      have hsettled : IsSettled text := ⟨hmarker, hutility⟩
      exact .inr (.inl ⟨hsettled, hsettled.logicalClass_eq⟩)
    | some utility => exact .inr (.inr (isLogicalForm_logicalClass hmarker hutility).2)

theorem IsSidePosition.isSettled (h : IsSidePosition text) : IsSettled text := by
  obtain ⟨hside, position, hposition, hbegins⟩ := h
  refine ⟨?_, logicalUtility?_position hposition hbegins hside⟩
  rintro rfl
  exact absurd hside (by decide)

theorem IsLogicalForm.exists_beginning (h : IsLogicalForm text out) :
    ∃ side ∈ directions, side.2.toList <+: (Token.ofString out).utility.toList := by
  obtain ⟨side, hside, rest, -, hout⟩ := h
  refine ⟨side, hside, ?_⟩
  rw [hout]
  exact ⟨rest.toList, (String.toList_append ..).symm⟩

theorem IsLogicalForm.isSettled (h : IsLogicalForm text out) : IsSettled out := by
  obtain ⟨side, hside, hbegins⟩ := h.exists_beginning
  obtain ⟨-, -, -, hsideless⟩ := directions_spec side hside
  exact isSettled_of_written (List.mem_append_left _ (List.mem_map_of_mem hside))
    (hsideless _ (by decide)) hbegins

theorem isSettled_flipClass : IsSettled flipClass :=
  isSettled_of_written (List.mem_append_right _ (by decide) : "rotate-180" ∈ written)
    (by decide) (by decide +kernel)

/-- **What becomes of a class is settled.** -/
theorem isSettled_logicalClass (text : String) : IsSettled (logicalClass text) := by
  rcases logicalClass_cases text with ⟨-, hflip⟩ | ⟨hsettled, hclass⟩ | hform
  · exact hflip ▸ isSettled_flipClass
  · rwa [hclass]
  · exact hform.isSettled

theorem IsLogicalForm.isWord (h : IsLogicalForm text out) (htext : IsWord text) : IsWord out := by
  obtain ⟨side, hside, rest, hutility, hout⟩ := h
  obtain ⟨-, ⟨-, hlogical⟩, -, -⟩ := directions_spec side hside
  rw [← Token.render_read text] at htext
  rw [← Token.render_read out, hout]
  exact Token.isWord_withBeginning htext hutility hlogical

theorem isWord_logicalClass (h : IsWord text) : IsWord (logicalClass text) := by
  rcases logicalClass_cases text with ⟨-, hflip⟩ | ⟨-, hclass⟩ | hform
  · rw [hflip]
    decide
  · rwa [hclass]
  · exact hform.isWord h

/-! ### Helpers -/

/-- The utility that a helper of a class has: a shift the other way, unless the class is for text
from right to left already, or a cursor with the other side. -/
def IsCounterpart (token : Token) (utility : String) : Prop :=
  (hasVariant token "rtl" = false ∧ oppositeShift? token.utility = some utility) ∨
    (token.utility, utility) ∈ mirrored

theorem find?_mirrored : ∀ pair ∈ mirrored, mirrored.find? (·.1 = pair.1) = some pair := by
  decide

theorem mem_helpersOf_iff {token : Token} :
    helper ∈ helpersOf token ↔
      ∃ utility, IsCounterpart token utility ∧ helper = underRtl token utility := by
  have hshift : helper ∈ (if hasVariant token "rtl" then []
      else ((oppositeShift? token.utility).map (underRtl token)).toList) ↔
      ∃ utility, (hasVariant token "rtl" = false ∧ oppositeShift? token.utility = some utility) ∧
        helper = underRtl token utility := by
    cases hasVariant token "rtl" with
    | true => simp
    | false => simp [Option.map_eq_some_iff, eq_comm (a := helper)]
  have hmirror : helper ∈
      ((mirrored.find? (·.1 = token.utility)).map fun pair => underRtl token pair.2).toList ↔
      ∃ utility, (token.utility, utility) ∈ mirrored ∧ helper = underRtl token utility := by
    rw [Option.mem_toList, Option.map_eq_some_iff]
    constructor
    · rintro ⟨pair, hpair, rfl⟩
      have hname : pair.1 = token.utility := by simpa using List.find?_some hpair
      exact ⟨pair.2, hname ▸ List.mem_of_find?_eq_some hpair, rfl⟩
    · rintro ⟨utility, hpair, rfl⟩
      exact ⟨_, find?_mirrored _ hpair, rfl⟩
  rw [helpersOf, List.mem_append, hshift, hmirror, ← exists_or]
  simp only [IsCounterpart, or_and_right]

/-- **The helpers of a class** are its counterparts under the variant `rtl`; the flip marker has
none. -/
theorem mem_classHelpers_iff :
    helper ∈ classHelpers text ↔ text ≠ flipMarker ∧
      ∃ utility, IsCounterpart (Token.ofString text) utility ∧
        helper = underRtl (Token.ofString text) utility := by
  rw [classHelpers]
  split_ifs with hmarker
  · simp [hmarker]
  · simp [hmarker, mem_helpersOf_iff]

theorem exists_of_oppositeShift? {utility shifted : String}
    (h : oppositeShift? utility = some shifted) :
    ∃ stem ∈ shiftStems, ∃ stem' ∈ shiftStems, ∃ rest,
      utility = stem ++ rest ∧ shifted = stem' ++ rest := by
  rw [oppositeShift?] at h
  cases hminus : stripString? "-translate-x-" utility with
  | some amount =>
    simp only [hminus, Option.some.injEq] at h
    exact ⟨"-translate-x-", by simp [shiftStems], "translate-x-", by simp [shiftStems], amount,
      stripString?_eq_some_iff.mp hminus, h.symm⟩
  | none =>
    simp only [hminus, Option.map_eq_some_iff] at h
    obtain ⟨amount, hamount, rfl⟩ := h
    exact ⟨"translate-x-", by simp [shiftStems], "-translate-x-", by simp [shiftStems], amount,
      stripString?_eq_some_iff.mp hamount, rfl⟩

theorem IsCounterpart.exists_stems {token : Token} {utility : String}
    (h : IsCounterpart token utility) :
    ∃ stem ∈ counterpartStems, ∃ stem' ∈ counterpartStems, ∃ rest,
      token.utility = stem ++ rest ∧ utility = stem' ++ rest := by
  rcases h with ⟨-, hshift⟩ | hmirror
  · obtain ⟨stem, hstem, stem', hstem', hrest⟩ := exists_of_oppositeShift? hshift
    exact ⟨stem, List.mem_append_left _ hstem, stem', List.mem_append_left _ hstem', hrest⟩
  · have hother : ∀ pair ∈ mirrored, pair.2 ∈ mirrored.map Prod.fst := by decide
    exact ⟨_, List.mem_append_right _ (List.mem_map_of_mem hmirror), _,
      List.mem_append_right _ (hother _ hmirror), "", by simp, by simp⟩

theorem hasVariant_withOuterVariant (token : Token) (variant : String) :
    hasVariant (token.withOuterVariant variant) variant := by
  have hbegins (inner : String) : variant.toList <+: (variant ++ ":" ++ inner).toList := by
    simp only [String.toList_append, List.append_assoc]
    exact List.prefix_append _ _
  rw [hasVariant, Token.withOuterVariant, stringContains_iff]
  cases token.variant with
  | none => exact List.infix_rfl
  | some inner => exact (hbegins inner).isInfix

/-- A helper is read with the parts that were written. -/
theorem IsCounterpart.ofString_underRtl {token : Token} {utility : String}
    (h : IsCounterpart token utility) (htoken : token.IsCut) :
    Token.ofString (underRtl token utility) =
      (token.withUtility utility).withOuterVariant "rtl" := by
  obtain ⟨stem, hstem, stem', hstem', rest, hutility, rfl⟩ := h.exists_stems
  have hcut : (token.withUtility (stem' ++ rest)).IsCut :=
    htoken.withUtility (counterpartStems_spec stem hstem).1 (by rw [hutility, String.toList_append])
      (counterpartStems_spec stem' hstem').1 (String.toList_append ..)
  exact (hcut.withOuterVariant (by decide)).ofString_render

/-- **A class asks for a helper** of its own, or for one that turns the order around because of
a piece that it holds. -/
def AsksFor (text helper : String) : Prop :=
  helper ∈ classHelpers text ∨
    ∃ pair ∈ reverseHelpers, stringContains pair.1 text ∧ helper = pair.2

theorem AsksFor.exists_beginning (h : AsksFor text helper) :
    ∃ stem ∈ helperStems, stem.toList <+: (Token.ofString helper).utility.toList := by
  rcases h with hclass | ⟨pair, hpair, -, rfl⟩
  · obtain ⟨-, utility, hcounterpart, rfl⟩ := mem_classHelpers_iff.mp hclass
    rw [hcounterpart.ofString_underRtl (Token.isCut_ofString text)]
    obtain ⟨-, -, stem, hstem, rest, -, rfl⟩ := hcounterpart.exists_stems
    exact ⟨stem, List.mem_append_left _ hstem, rest.toList, (String.toList_append ..).symm⟩
  · have hstems : ∀ pair ∈ reverseHelpers, ∃ stem ∈ helperStems,
        stem.toList <+: (Token.ofString pair.2).utility.toList := by
      decide
    exact hstems pair hpair

/-- **A helper is settled.** -/
theorem isSettled_of_asksFor (h : AsksFor text helper) : IsSettled helper := by
  have hmarker : ∀ stem ∈ helperStems, differ stem.toList flipMarker.toList := by decide
  obtain ⟨stem, hstem, hbegins⟩ := h.exists_beginning
  exact isSettled_of_written (List.mem_append_right _ (List.mem_append_left _ hstem))
    (hmarker stem hstem) hbegins

/-- What becomes of a class has the utility of a helper only if the class has stayed. -/
theorem logicalClass_eq_self_of_stem {stem : String} (hstem : stem ∈ helperStems)
    (h : stem.toList <+: (Token.ofString (logicalClass text)).utility.toList) :
    logicalClass text = text := by
  rcases logicalClass_cases text with ⟨-, hflip⟩ | ⟨-, hclass⟩ | hform
  · have hrotate : ∀ stem ∈ helperStems,
        ¬stem.toList <+: (Token.ofString flipClass).utility.toList := by
      decide
    rw [hflip] at h
    exact absurd h (hrotate stem hstem)
  · exact hclass
  · obtain ⟨side, hside, hlogical⟩ := hform.exists_beginning
    obtain ⟨-, -, -, hdiffer⟩ := directions_spec side hside
    have hsideless : stem ∈ sideless := List.mem_append_left _ hstem
    exact absurd ⟨hlogical, h⟩ (not_prefix_both_of_differ (hdiffer stem hsideless))

theorem AsksFor.eq_of_logicalClass {other : String} (h : AsksFor text helper)
    (hother : logicalClass other = helper) : other = helper := by
  obtain ⟨stem, hstem, hbegins⟩ := h.exists_beginning
  rw [← hother] at hbegins
  exact (logicalClass_eq_self_of_stem hstem hbegins).symm.trans hother

theorem AsksFor.isWord (h : AsksFor text helper) (htext : IsWord text) : IsWord helper := by
  rcases h with hclass | ⟨pair, hpair, -, rfl⟩
  · obtain ⟨-, utility, hcounterpart, rfl⟩ := mem_classHelpers_iff.mp hclass
    obtain ⟨_, -, stem, hstem, rest, hutility, rfl⟩ := hcounterpart.exists_stems
    rw [← Token.render_read text] at htext
    exact Token.isWord_withOuterVariant
      (Token.isWord_withBeginning htext hutility (counterpartStems_spec stem hstem).2) (by decide)
  · exact (reverseHelpers_isWord pair hpair).2

end Classes

/-! ### A list of classes -/

section Lists

variable {text c helper : String}

/-- The helpers that a class list asks for. -/
def helpersFor (text : String) : List String :=
  (words text).flatMap classHelpers ++
    (reverseHelpers.filter fun (piece, _) => stringContains piece text).map Prod.snd

/-- The pieces that are looked for in a text stand in one of its words. -/
theorem stringContains_iff_class {pair : String × String} (hpair : pair ∈ reverseHelpers) :
    stringContains pair.1 text ↔ ∃ c ∈ words text, stringContains pair.1 c :=
  stringContains_iff_words (reverseHelpers_isWord pair hpair).1

/-- **Helpers are asked for class by class.** -/
theorem mem_helpersFor_iff : helper ∈ helpersFor text ↔ ∃ c ∈ words text, AsksFor c helper := by
  have hreversals : helper ∈
      (reverseHelpers.filter fun (piece, _) => stringContains piece text).map Prod.snd ↔
      ∃ c ∈ words text, ∃ pair ∈ reverseHelpers, stringContains pair.1 c ∧ helper = pair.2 := by
    simp only [List.mem_map, List.mem_filter]
    constructor
    · rintro ⟨pair, ⟨hpair, hcontains⟩, rfl⟩
      obtain ⟨c, hc, hpiece⟩ := (stringContains_iff_class hpair).mp hcontains
      exact ⟨c, hc, pair, hpair, hpiece, rfl⟩
    · rintro ⟨c, hc, pair, hpair, hpiece, rfl⟩
      exact ⟨pair, ⟨hpair, (stringContains_iff_class hpair).mpr ⟨c, hc, hpiece⟩⟩, rfl⟩
  rw [helpersFor, List.mem_append, List.mem_flatMap, hreversals]
  simp only [AsksFor, and_or_left, exists_or]

theorem words_redirect (text : String) :
    words (redirect text) = firsts ((words text).map logicalClass ++ helpersFor text) := by
  refine words_unwords_of_isWord fun c hc => ?_
  rw [mem_firsts, List.mem_append, List.mem_map] at hc
  rcases hc with ⟨a, ha, rfl⟩ | hhelper
  · exact isWord_logicalClass (isWord_of_mem_words ha)
  · obtain ⟨a, ha, hasks⟩ := mem_helpersFor_iff.mp hhelper
    exact hasks.isWord (isWord_of_mem_words ha)

/-- **What comes out of a list** comes out of one of its classes. -/
theorem mem_words_redirect :
    c ∈ words (redirect text) ↔ ∃ a ∈ words text, c = logicalClass a ∨ AsksFor a c := by
  rw [words_redirect, mem_firsts, List.mem_append, List.mem_map, mem_helpersFor_iff]
  simp only [and_or_left, exists_or, eq_comm]

theorem isSettled_of_mem_redirect (h : c ∈ words (redirect text)) : IsSettled c := by
  obtain ⟨a, -, rfl | hasks⟩ := mem_words_redirect.mp h
  · exact isSettled_logicalClass a
  · exact isSettled_of_asksFor hasks

/-- A helper comes out in the place of a class only if it was a class of the list. -/
theorem mem_map_logicalClass_iff (hhelper : helper ∈ helpersFor text) :
    helper ∈ (words text).map logicalClass ↔ helper ∈ words text := by
  obtain ⟨a, -, hasks⟩ := mem_helpersFor_iff.mp hhelper
  rw [List.mem_map]
  constructor
  · rintro ⟨other, hother, hclass⟩
    rwa [← hasks.eq_of_logicalClass hclass]
  · intro hmem
    exact ⟨helper, hmem, (isSettled_of_asksFor hasks).logicalClass_eq⟩

end Lists

/-- **A class list is redirected class by class, in one pass.** What comes out of two lists
together is what comes out of each. No class comes out twice. The classes are there in the order
in which they came, each as it was if there was nothing to redirect in it, else in its logical
form; behind them are the helpers that were no classes of the list, and nothing else. In no class
that comes out there is anything left to redirect. A position under a side variant is as it
was. -/
theorem redirect_classwise :
    (∀ x y c, c ∈ words (redirect (x ++ " " ++ y)) ↔
      c ∈ words (redirect x) ∨ c ∈ words (redirect y)) ∧
    ∀ text, (words (redirect text)).Nodup ∧
      (∃ helpers, words (redirect text) = firsts ((words text).map logicalClass) ++ helpers ∧
        ∀ helper, helper ∈ helpers ↔
          (∃ c ∈ words text, AsksFor c helper) ∧ helper ∉ words text) ∧
      (∀ c ∈ words text, c ≠ flipMarker →
        logicalUtility? (Token.ofString c) = none ∧ logicalClass c = c ∨
          IsLogicalForm c (logicalClass c)) ∧
      (∀ c ∈ words (redirect text), logicalUtility? (Token.ofString c) = none) ∧
      ∀ c ∈ words text, IsSidePosition c → logicalClass c = c := by
  refine ⟨fun x y c => ?_, fun text => ⟨?_,
    ⟨(firsts (helpersFor text)).filter (· ∉ (words text).map logicalClass), ?_, fun helper => ?_⟩,
    ?_, ?_, ?_⟩⟩
  · simp only [mem_words_redirect, words_append, List.mem_append, or_and_right, exists_or]
  · rw [words_redirect]
    exact nodup_firsts _
  · rw [words_redirect, firsts_append]
  · rw [List.mem_filter, mem_firsts, ← mem_helpersFor_iff, decide_eq_true_eq]
    exact and_congr_right fun hhelper => not_congr (mem_map_logicalClass_iff hhelper)
  · intro c _ hmarker
    rcases logicalClass_cases c with ⟨heq, -⟩ | ⟨hsettled, hclass⟩ | hform
    · exact absurd heq hmarker
    · exact .inl ⟨hsettled.2, hclass⟩
    · exact .inr hform
  · exact fun c hc => (isSettled_of_mem_redirect hc).2
  · exact fun c _ hposition => hposition.isSettled.logicalClass_eq

/-- A margin gets its logical form, and a position under a side variant stays. -/
theorem redirect_classwise_margin :
    IsLogicalForm "hover:ml-2" (logicalClass "hover:ml-2") ∧
      IsSidePosition "data-[side=left]:left-0" ∧
      logicalClass "data-[side=left]:left-0" = "data-[side=left]:left-0" ∧
      "hover:ms-2" ∈ words (redirect ("flex" ++ " " ++ "hover:ml-2")) := by
  obtain ⟨hunion, hall⟩ := redirect_classwise
  obtain ⟨-, -, hforms, -, hpositions⟩ := hall "hover:ml-2 data-[side=left]:left-0"
  have hposition : IsSidePosition "data-[side=left]:left-0" :=
    ⟨by decide, "left-", by decide +kernel, by decide +kernel⟩
  refine ⟨?_, hposition, ?_, ?_⟩
  · have hphysical : ¬(logicalUtility? (Token.ofString "hover:ml-2") = none ∧
        logicalClass "hover:ml-2" = "hover:ml-2") := by
      decide
    exact (hforms "hover:ml-2" (by decide) (by decide)).resolve_left hphysical
  · exact hpositions "data-[side=left]:left-0" (by decide) hposition
  · exact (hunion "flex" "hover:ml-2" "hover:ms-2").mpr (.inr (by decide))

end Restyle.Class
