import Mathlib.Data.Finset.Max
import Restyle.Proofs.Class.Direction

/-!
# Redirecting twice

What comes out of a redirected list is settled, so a second run changes no class of it. It may
ask for more helpers, and then it adds them. Hence a second run changes nothing exactly if all
that it asks for is there already (`Restyle.Class.redirect_redirect_iff_helpersFor`).

It is, but for two things.

* **Resize cursors.** The helper of a resize cursor is a resize cursor, and no variant keeps it
  from asking for a helper of its own, which is longer. So a list that holds one
  (`Restyle.Class.IsResize`) grows with every run (`Restyle.Class.not_subset_of_isResize`).
  A shift does not: its helper stands under `rtl`, where shifts ask for nothing.
* **Pieces that are put together.** A slide goes on directly behind its side, so in
  `slide-in-from-rightivide-x-2` a redirected side makes up the piece `divide-x-`, which the
  list did not hold.

Without either, a second run changes nothing (`Restyle.Class.redirect_redirect_iff`).
-/

namespace Restyle.Class

open Restyle.Text

variable {text c helper : String}

/-- **A second run changes nothing exactly if all that it asks for is there.** -/
theorem redirect_redirect_iff_helpersFor :
    redirect (redirect text) = redirect text ↔
      ∀ helper ∈ helpersFor (redirect text), helper ∈ words (redirect text) := by
  have hjoined (text : String) : redirect text = unwords (words (redirect text)) := by
    rw [words_redirect]
    rfl
  have hsettled : (words (redirect text)).map logicalClass = words (redirect text) :=
    (List.map_congr_left fun c hc => (isSettled_of_mem_redirect hc).logicalClass_eq).trans
      (List.map_id _)
  have hwords : words (redirect (redirect text)) =
      firsts (words (redirect text) ++ helpersFor (redirect text)) := by
    rw [words_redirect (redirect text), hsettled]
  have hnodup : (words (redirect text)).Nodup := by
    rw [words_redirect]
    exact nodup_firsts _
  rw [← firsts_append_eq_left_iff hnodup, ← hwords]
  constructor
  · intro h
    rw [h]
  · intro h
    rw [hjoined (redirect text), h, ← hjoined text]

/-! ### Resize cursors -/

/-- A class with a resize cursor. -/
def IsResize (text : String) : Prop :=
  (Token.ofString text).utility ∈ mirrored.map Prod.fst

instance (text : String) : Decidable (IsResize text) :=
  inferInstanceAs (Decidable (_ ∈ _))

theorem IsResize.mem_counterpartStems (h : IsResize text) :
    (Token.ofString text).utility ∈ counterpartStems :=
  List.mem_append_right _ h

theorem IsResize.isSettled (h : IsResize text) : IsSettled text := by
  have hmarker : ∀ stem ∈ counterpartStems, differ stem.toList flipMarker.toList := by
    decide
  have hwritten : (Token.ofString text).utility ∈ written :=
    List.mem_append_right _
      (List.mem_append_left _ (List.mem_append_left _ h.mem_counterpartStems))
  exact isSettled_of_written hwritten (hmarker _ h.mem_counterpartStems) List.prefix_rfl

/-- **A resize cursor asks for a longer one.** -/
theorem IsResize.exists_helper (h : IsResize text) :
    ∃ helper, AsksFor text helper ∧ IsResize helper ∧ text.length < helper.length := by
  obtain ⟨pair, hpair, hname⟩ := List.mem_map.mp h
  have hother : ∀ pair ∈ mirrored, pair.2 ∈ mirrored.map Prod.fst := by decide
  have hlength : ∀ pair ∈ mirrored, pair.1.length = pair.2.length := by decide
  have hcounterpart : IsCounterpart (Token.ofString text) pair.2 := .inr (hname ▸ hpair)
  refine ⟨underRtl (Token.ofString text) pair.2,
    .inl (mem_classHelpers_iff.mpr ⟨h.isSettled.1, pair.2, hcounterpart, rfl⟩), ?_, ?_⟩
  · rw [IsResize, hcounterpart.ofString_underRtl (Token.isCut_ofString text)]
    exact hother pair hpair
  · have hrender := Token.length_render_withUtility (Token.ofString text) pair.2
    rw [Token.render_read, ← hname, hlength pair hpair] at hrender
    have hvariant : ("rtl" ++ ":").length = 4 := by decide
    rw [underRtl, Token.render_withOuterVariant, String.length_append, hvariant]
    omega

/-- A shift is no resize cursor. -/
theorem not_mem_mirrored_of_oppositeShift? {utility shifted : String}
    (h : oppositeShift? utility = some shifted) : shifted ∉ mirrored.map Prod.fst := by
  have hdiffer : ∀ stem ∈ shiftStems, ∀ name ∈ mirrored.map Prod.fst,
      ¬stem.toList <+: name.toList := by
    decide
  obtain ⟨-, -, stem, hstem, rest, -, rfl⟩ := exists_of_oppositeShift? h
  exact fun hname => hdiffer stem hstem _ hname ⟨rest.toList, (String.toList_append ..).symm⟩

/-- **A list with a resize cursor lacks a helper**: that of the longest one. -/
theorem not_subset_of_isResize (hc : c ∈ words text) (hresize : IsResize c) :
    ¬∀ helper ∈ helpersFor text, helper ∈ words text := by
  intro hall
  obtain ⟨longest, hlongest, hmax⟩ :=
    ((words text).toFinset.filter IsResize).exists_max_image String.length
      ⟨c, by simpa using ⟨hc, hresize⟩⟩
  obtain ⟨hmem, hlongest⟩ : longest ∈ words text ∧ IsResize longest := by simpa using hlongest
  obtain ⟨helper, hasks, hhelper, hlonger⟩ := hlongest.exists_helper
  have hthere := hall helper (mem_helpersFor_iff.mpr ⟨longest, hmem, hasks⟩)
  have hle := hmax helper (by simpa using ⟨hthere, hhelper⟩)
  omega

/-- Redirecting brings no resize cursor into a list that has none. -/
theorem exists_isResize_iff :
    (∃ c ∈ words (redirect text), IsResize c) ↔ ∃ c ∈ words text, IsResize c := by
  constructor
  · rintro ⟨c, hc, hresize⟩
    have hstem : (Token.ofString c).utility ∈ helperStems :=
      List.mem_append_left _ hresize.mem_counterpartStems
    obtain ⟨a, ha, rfl | hclass | ⟨pair, hpair, -, rfl⟩⟩ := mem_words_redirect.mp hc
    · rw [logicalClass_eq_self_of_stem hstem List.prefix_rfl] at hresize
      exact ⟨a, ha, hresize⟩
    · obtain ⟨-, utility, hcounterpart, rfl⟩ := mem_classHelpers_iff.mp hclass
      rw [IsResize, hcounterpart.ofString_underRtl (Token.isCut_ofString a)] at hresize
      rcases hcounterpart with ⟨-, hshift⟩ | hmirror
      · exact absurd hresize (not_mem_mirrored_of_oppositeShift? hshift)
      · exact ⟨a, ha, List.mem_map_of_mem hmirror⟩
    · have hnone : ∀ pair ∈ reverseHelpers, ¬IsResize pair.2 := by decide
      exact absurd hresize (hnone pair hpair)
  · rintro ⟨c, hc, hresize⟩
    exact ⟨c, mem_words_redirect.mpr ⟨c, hc, .inl hresize.isSettled.logicalClass_eq.symm⟩, hresize⟩

/-! ### Helpers that are there -/

/-- A helper stands under `rtl`. -/
theorem AsksFor.hasVariant (h : AsksFor text helper) :
    hasVariant (Token.ofString helper) "rtl" := by
  rcases h with hclass | ⟨pair, hpair, -, rfl⟩
  · obtain ⟨-, utility, hcounterpart, rfl⟩ := mem_classHelpers_iff.mp hclass
    rw [hcounterpart.ofString_underRtl (Token.isCut_ofString text)]
    exact hasVariant_withOuterVariant _ _
  · have hrtl : ∀ pair ∈ reverseHelpers, Class.hasVariant (Token.ofString pair.2) "rtl" := by
      decide
    exact hrtl pair hpair

/-- **Only resize cursors ask for a helper of their own that is not there.** -/
theorem mem_redirect_of_mem_classHelpers (hc : c ∈ words (redirect text)) (hresize : ¬IsResize c)
    (h : helper ∈ classHelpers c) : helper ∈ words (redirect text) := by
  obtain ⟨-, utility, hcounterpart, -⟩ := mem_classHelpers_iff.mp h
  obtain ⟨stem, hstem, -, -, rest, hutility, -⟩ := hcounterpart.exists_stems
  rcases hcounterpart with ⟨hvariant, -⟩ | hmirror
  -- a shift was there before the first run, which asked for its helper; or it is a helper itself,
  -- and stands under `rtl`
  · obtain ⟨a, ha, hfrom | hasks⟩ := mem_words_redirect.mp hc
    · have hbegins : stem.toList <+: (Token.ofString (logicalClass a)).utility.toList := by
        rw [← hfrom, hutility, String.toList_append]
        exact List.prefix_append _ _
      rw [logicalClass_eq_self_of_stem (List.mem_append_left _ hstem) hbegins] at hfrom
      exact mem_words_redirect.mpr ⟨a, ha, .inr (.inl (hfrom ▸ h))⟩
    · rw [hasks.hasVariant] at hvariant
      cases hvariant
  · exact absurd (List.mem_map_of_mem hmirror) hresize

/-- What turns the order around is there exactly if the text holds its piece. -/
theorem reversal_mem_redirect_iff {pair : String × String} (hpair : pair ∈ reverseHelpers) :
    pair.2 ∈ words (redirect text) ↔ stringContains pair.1 text := by
  have hself : ∀ pair ∈ reverseHelpers, stringContains pair.1 pair.2 := by decide
  have hinj : ∀ pair ∈ reverseHelpers, ∀ other ∈ reverseHelpers,
      pair.2 = other.2 → pair = other := by
    decide
  have hstems : ∀ pair ∈ reverseHelpers, ∀ stem ∈ counterpartStems,
      ¬stem.toList <+: (Token.ofString pair.2).utility.toList := by
    decide
  rw [mem_words_redirect, stringContains_iff_class hpair]
  constructor
  · rintro ⟨a, ha, hclass | hclass | ⟨other, hother, hpiece, heq⟩⟩
    · have hasks : AsksFor pair.2 pair.2 := .inr ⟨pair, hpair, hself pair hpair, rfl⟩
      obtain rfl := hasks.eq_of_logicalClass hclass.symm
      exact ⟨pair.2, ha, hself pair hpair⟩
    · obtain ⟨-, utility, hcounterpart, hunder⟩ := mem_classHelpers_iff.mp hclass
      obtain ⟨-, -, stem, hstem, rest, -, rfl⟩ := hcounterpart.exists_stems
      refine absurd ?_ (hstems pair hpair stem hstem)
      rw [hunder, hcounterpart.ofString_underRtl (Token.isCut_ofString a)]
      exact ⟨rest.toList, (String.toList_append ..).symm⟩
    · rw [hinj pair hpair other hother heq]
      exact ⟨a, ha, hpiece⟩
  · rintro ⟨a, ha, hpiece⟩
    exact ⟨a, ha, .inr (.inr ⟨pair, hpair, hpiece, rfl⟩)⟩

/-! ### Pieces that are put together -/

/-- A piece **starts nowhere** in a text, whatever follows. -/
def startsNowhere (piece : List Char) : List Char → Bool
  | [] => true
  | c :: cs => differ piece (c :: cs) && startsNowhere piece cs

theorem infix_of_startsNowhere {piece front rest : List Char} (h : startsNowhere piece front)
    (hpiece : piece <:+: front ++ rest) : piece <:+: rest := by
  induction front with
  | nil => exact hpiece
  | cons c front ih =>
    rw [startsNowhere, Bool.and_eq_true] at h
    rw [List.cons_append, List.infix_cons_iff] at hpiece
    rcases hpiece with hbegins | hinfix
    · exact absurd hbegins (not_prefix_of_differ h.1 rest)
    · exact ih h.2 hinfix

/-- The pieces have no part in what is written by mappings and shifts. -/
def Mapping.evades (piece : List Char) : Mapping → Bool
  | .stem _ logical => startsNowhere piece logical.toList
  | .whole _ logical => !contains piece logical.toList

theorem reverseHelpers_spec : ∀ pair ∈ reverseHelpers,
    (∀ mapping ∈ mappings, mapping.evades pair.1.toList) ∧
      (∀ stem ∈ counterpartStems, startsNowhere pair.1.toList stem.toList) ∧
      (':' ∉ pair.1.toList ∧ '/' ∉ pair.1.toList) ∧
      (stringContains pair.1 flipClass = false ∧ ¬pair.1.toList <:+: "rtl".toList) ∧
      ∀ other ∈ reverseHelpers, stringContains pair.1 other.2 → pair = other := by
  decide

theorem Mapping.infix_of_evades {mapping : Mapping} {piece : List Char} {underSide : Bool}
    {utility : String} (h : mapping.evades piece)
    (hredirect : mapping.redirect? underSide text = some (some utility))
    (hpiece : piece <:+: utility.toList) : piece <:+: text.toList := by
  cases mapping with
  | stem physical logical =>
    obtain ⟨rest, rfl, rfl⟩ := Mapping.of_redirect?_eq_some hredirect
    rw [String.toList_append] at hpiece ⊢
    exact (infix_of_startsNowhere h hpiece).trans (List.suffix_append _ _).isInfix
  | whole physical logical =>
    rw [redirect?] at hredirect
    split_ifs at hredirect
    obtain rfl := Option.some.inj (Option.some.inj hredirect)
    rw [evades, Bool.not_eq_true', contains_eq_false_iff] at h
    exact absurd hpiece h

section Pieces

variable {pair : String × String} (hpair : pair ∈ reverseHelpers)
include hpair

/-- A piece of a class with another utility is one of the class or of that utility. -/
theorem stringContains_withUtility {utility : String}
    (h : stringContains pair.1 ((Token.ofString text).withUtility utility).render) :
    stringContains pair.1 text ∨ stringContains pair.1 utility := by
  obtain ⟨-, -, ⟨hcolon, hslash⟩, -⟩ := reverseHelpers_spec pair hpair
  rw [stringContains_iff, Token.infix_render_iff hcolon hslash] at h
  rw [stringContains_iff, stringContains_iff, ← Token.render_read text,
    Token.infix_render_iff hcolon hslash]
  rcases h with hvariant | hutility | hopacity
  · exact .inl (.inl hvariant)
  · exact .inr hutility
  · exact .inl (.inr (.inr hopacity))

/-- **A class that is redirected holds no new piece**, unless it is a slide. -/
theorem stringContains_logicalClass (h : stringContains pair.1 (logicalClass c)) :
    stringContains pair.1 c ∨
      ∃ slide ∈ logicalSlide? (Token.ofString c), stringContains pair.1 slide := by
  obtain ⟨hmappings, -, -, ⟨hflip, -⟩, -⟩ := reverseHelpers_spec pair hpair
  by_cases hmarker : c = flipMarker
  · have hclass : logicalClass c = flipClass := if_pos hmarker
    rw [hclass, hflip] at h
    cases h
  cases hutility : logicalUtility? (Token.ofString c) with
  | none =>
    have hsettled : IsSettled c := ⟨hmarker, hutility⟩
    rw [hsettled.logicalClass_eq] at h
    exact .inl h
  | some utility =>
    rw [(isLogicalForm_logicalClass hmarker hutility).1] at h
    rcases stringContains_withUtility hpair h with hclass | hpiece
    · exact .inl hclass
    rw [logicalUtility?] at hutility
    cases hslide : logicalSlide? (Token.ofString c) with
    | some slide =>
      simp only [hslide, Option.some.injEq] at hutility
      exact .inr ⟨slide, rfl, hutility ▸ hpiece⟩
    | none =>
      simp only [hslide, Option.join_eq_some_iff] at hutility
      obtain ⟨mapping, hmem, hsome⟩ := List.exists_of_findSome?_eq_some hutility
      rw [stringContains_iff] at hpiece
      have hrest := Mapping.infix_of_evades (hmappings mapping hmem) hsome hpiece
      refine .inl (stringContains_iff.mpr (hrest.trans ?_))
      simpa using Token.utility_infix_render (Token.ofString c)

/-- **A helper holds no new piece.** -/
theorem AsksFor.stringContains (hasks : AsksFor c helper)
    (h : stringContains pair.1 helper) : stringContains pair.1 c := by
  obtain ⟨-, hstems, ⟨hcolon, -⟩, ⟨-, hrtl⟩, hreversals⟩ := reverseHelpers_spec pair hpair
  rcases hasks with hclass | ⟨other, hother, hpiece, rfl⟩
  · obtain ⟨-, utility, hcounterpart, rfl⟩ := mem_classHelpers_iff.mp hclass
    obtain ⟨_, -, stem, hstem, rest, hutility, rfl⟩ := hcounterpart.exists_stems
    have hunder : (underRtl (Token.ofString c) (stem ++ rest)).toList = "rtl".toList ++
        ':' :: ((Token.ofString c).withUtility (stem ++ rest)).render.toList := by
      simp [underRtl, Token.render_withOuterVariant]
    rw [stringContains_iff, hunder, infix_append_cons_iff hcolon, or_iff_right hrtl,
      ← stringContains_iff] at h
    rcases stringContains_withUtility hpair h with hclass | hpiece
    · exact hclass
    rw [stringContains_iff, String.toList_append] at hpiece
    have hrest := infix_of_startsNowhere (hstems stem hstem) hpiece
    have htext : rest.toList <:+: c.toList := by
      refine List.IsInfix.trans ?_ (Token.render_read c ▸ Token.utility_infix_render _)
      rw [hutility, String.toList_append]
      exact (List.suffix_append _ _).isInfix
    exact stringContains_iff.mpr (hrest.trans htext)
  · rwa [hreversals other hother h]

/-- **A piece that redirecting puts together** is in a slide. -/
theorem stringContains_redirect (h : stringContains pair.1 (redirect text)) :
    stringContains pair.1 text ∨ ∃ c ∈ words text,
      ∃ slide ∈ logicalSlide? (Token.ofString c), stringContains pair.1 slide := by
  obtain ⟨c, hc, hpiece⟩ := (stringContains_iff_class hpair).mp h
  have hheld {a : String} (ha : a ∈ words text) (hpiece : stringContains pair.1 a) :
      stringContains pair.1 text :=
    (stringContains_iff_class hpair).mpr ⟨a, ha, hpiece⟩
  obtain ⟨a, ha, rfl | hasks⟩ := mem_words_redirect.mp hc
  · rcases stringContains_logicalClass hpair hpiece with hclass | hslide
    · exact .inl (hheld ha hclass)
    · exact .inr ⟨a, ha, hslide⟩
  · exact .inl (hheld ha (hasks.stringContains hpair hpiece))

/-- And a piece of a slide stays in what comes out. -/
theorem stringContains_redirect_of_slide {slide : String} (hc : c ∈ words text)
    (hslide : slide ∈ logicalSlide? (Token.ofString c)) (h : stringContains pair.1 slide) :
    stringContains pair.1 (redirect text) := by
  have hmarker : c ≠ flipMarker := by
    rintro rfl
    have hnone : logicalSlide? (Token.ofString flipMarker) = none := by decide
    rw [hnone] at hslide
    cases hslide
  have hutility : logicalUtility? (Token.ofString c) = some slide := by
    simp only [logicalUtility?, Option.mem_def.mp hslide]
  rw [stringContains_iff_class hpair]
  refine ⟨logicalClass c, mem_words_redirect.mpr ⟨c, hc, .inl rfl⟩, ?_⟩
  have hinfix : slide.toList <:+: ((Token.ofString c).withUtility slide).render.toList :=
    Token.utility_infix_render ((Token.ofString c).withUtility slide)
  rw [(isLogicalForm_logicalClass hmarker hutility).1, stringContains_iff]
  exact (stringContains_iff.mp h).trans hinfix

end Pieces

/-- **A second run changes nothing exactly if** the list has no resize cursor, and no slide of it
makes up a piece that the list did not hold. -/
theorem redirect_redirect_iff (text : String) :
    redirect (redirect text) = redirect text ↔
      (∀ c ∈ words text, ¬IsResize c) ∧
      ∀ c ∈ words text, ∀ slide ∈ logicalSlide? (Token.ofString c), ∀ pair ∈ reverseHelpers,
        stringContains pair.1 slide → stringContains pair.1 text := by
  rw [redirect_redirect_iff_helpersFor]
  constructor
  · intro hall
    refine ⟨fun c hc hresize => ?_, fun c hc slide hslide pair hpair hpiece => ?_⟩
    · obtain ⟨out, hout, hresize⟩ := exists_isResize_iff.mpr ⟨c, hc, hresize⟩
      exact not_subset_of_isResize hout hresize hall
    · have hcontains := stringContains_redirect_of_slide hpair hc hslide hpiece
      obtain ⟨out, hout, hpiece⟩ := (stringContains_iff_class hpair).mp hcontains
      have hasks : pair.2 ∈ helpersFor (redirect text) :=
        mem_helpersFor_iff.mpr ⟨out, hout, .inr ⟨pair, hpair, hpiece, rfl⟩⟩
      exact (reversal_mem_redirect_iff hpair).mp (hall _ hasks)
  · -- what the second run asks for, a class of the first run asks for
    rintro ⟨hresize, hslides⟩ helper hhelper
    obtain ⟨c, hc, hclass | ⟨pair, hpair, hpiece, rfl⟩⟩ := mem_helpersFor_iff.mp hhelper
    · refine mem_redirect_of_mem_classHelpers hc (fun hcursor => ?_) hclass
      obtain ⟨a, ha, hcursor⟩ := exists_isResize_iff.mp ⟨c, hc, hcursor⟩
      exact hresize a ha hcursor
    · have hcontains := (stringContains_iff_class hpair).mpr ⟨c, hc, hpiece⟩
      rw [reversal_mem_redirect_iff hpair]
      rcases stringContains_redirect hpair hcontains with htext | ⟨a, ha, slide, hslide, hpiece⟩
      · exact htext
      · exact hslides a ha slide hslide pair hpair hpiece

/-- **Not every list is settled after one run**: the helper of a resize cursor asks for another
one. -/
theorem not_forall_redirect_redirect :
    ¬∀ text, redirect (redirect text) = redirect text := by
  intro h
  exact absurd (h "cursor-w-resize") (by decide)

end Restyle.Class
