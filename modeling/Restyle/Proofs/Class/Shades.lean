import Restyle.Class.BaseColor
import Restyle.Proofs.Class.Reading
import Restyle.Proofs.Order.Distinct
import Restyle.Proofs.Order.Entries

/-!
# Shades, light and dark

A recolored list is two sets, one behind the other: the light classes, and the classes for dark
mode (`Restyle.Class.Palette.words_recolor`). A class for dark mode begins with `dark:`, and so
does a light class exactly if the class it stands for does
(`Restyle.Class.Palette.isDark_lightClass_iff`). So the two sets are apart unless the list has
classes under `dark` of its own, and one of these comes out as the dark class of another class
(`Restyle.Class.Palette.nodup_recolor_iff`).

A class `border` is joined by `border-border` only where it stands between two spaces
(`Restyle.Class.Palette.words_colorBorder`). There the border follows the palette; elsewhere it
does so only if another class of the list asks for the shade
(`Restyle.Class.Palette.count_recolor_border`).
-/

namespace Restyle.Class

open Restyle.Text

/-! ### The class of a border -/

namespace Palette

/-- **A class `border` is joined** by the colour of the border where it stands between two
spaces, the first time that it does. -/
theorem words_colorBorder (text : String) :
    (stringContains " border " text = false ∧ words (colorBorder text) = words text) ∨
      (stringContains " border " text ∧ ∃ front back,
        words text = front ++ "border" :: back ∧
        words (colorBorder text) = front ++ "border" :: "border-border" :: back) := by
  rw [← Bool.not_eq_true, stringContains_iff, ← isSome_cutAt?_iff, colorBorder, replaceFirst]
  cases hcut : cutAt? " border ".toList text.toList with
  | none => exact .inl ⟨by simp, by simp⟩
  | some cut =>
    refine .inr ⟨rfl, (wordsOf cut.1).map String.ofList, (wordsOf cut.2).map String.ofList, ?_, ?_⟩
    · have htext : text.toList = cut.1 ++ ' ' :: ("border".toList ++ ' ' :: cut.2) :=
        cutAt?_eq_some hcut
      have hborder : wordsOf "border".toList = ["border".toList] := by decide
      rw [words, htext, wordsOf_append_cons (by decide), wordsOf_append_cons (by decide), hborder]
      simp
    · have htext : cut.1 ++ " border border-border ".toList ++ cut.2 =
          cut.1 ++ ' ' :: ("border".toList ++ ' ' :: ("border-border".toList ++ ' ' :: cut.2)) := by
        simp
      have hborder : wordsOf "border".toList = ["border".toList] := by decide
      have hcolor : wordsOf "border-border".toList = ["border-border".toList] := by decide
      dsimp only
      rw [words, String.toList_ofList, htext, wordsOf_append_cons (by decide),
        wordsOf_append_cons (by decide), wordsOf_append_cons (by decide), hborder, hcolor]
      simp

theorem mem_words_colorBorder {c text : String} :
    c ∈ words (colorBorder text) ↔
      c ∈ words text ∨ (stringContains " border " text ∧ c = "border-border") := by
  rcases words_colorBorder text with ⟨hnone, hwords⟩ | ⟨hsome, front, back, htext, hwords⟩
  · simp [hwords, hnone]
  · simp only [hwords, htext, hsome, true_and, List.mem_append, List.mem_cons]
    constructor
    · rintro (hfront | hborder | hcolor | hback)
      · exact .inl (.inl hfront)
      · exact .inl (.inr (.inl hborder))
      · exact .inr hcolor
      · exact .inl (.inr (.inr hback))
    · rintro ((hfront | hborder | hback) | hcolor)
      · exact .inl hfront
      · exact .inr (.inl hborder)
      · exact .inr (.inr (.inr hback))
      · exact .inr (.inr (.inl hcolor))

theorem exists_mem_words_colorBorder {p : String → Prop} {text : String} :
    (∃ c ∈ words (colorBorder text), p c) ↔
      (stringContains " border " text ∧ p "border-border") ∨ ∃ c ∈ words text, p c := by
  simp only [mem_words_colorBorder, or_and_right, exists_or, and_assoc, exists_and_left,
    exists_eq_left, or_comm]

/-! ### The class of a shade -/

section Classes

variable {palette : Palette} {text dark : String}

/-- **A palette is unbroken** if none of its shades has a blank in it. -/
def IsUnbroken (palette : Palette) : Prop :=
  ∀ entry ∈ palette.light ++ palette.dark, ∀ c ∈ entry.2.toList, ¬isBlank c

instance (palette : Palette) : Decidable palette.IsUnbroken :=
  decidable_of_iff (∀ entry ∈ palette.light ++ palette.dark, (chars entry.2).all (!isBlank ·))
    (by simp [IsUnbroken, toList_eq_chars])

theorem isUnbroken_base (color : BaseColor) : color.palette.IsUnbroken := by
  cases color <;> decide

theorem of_namedColor?_eq_some {utility kind name : String}
    (h : palette.namedColor? utility = some (kind, name)) :
    kind ∈ colorUtilities ∧ utility = kind ++ name ∧
      ∃ shade, palette.light.find? name = some shade := by
  obtain ⟨kind', hkind, hsome⟩ := List.exists_of_findSome?_eq_some h
  simp only [Option.bind_eq_bind, Option.bind_eq_some_iff, Option.pure_def, Option.some.injEq,
    Prod.mk.injEq] at hsome
  obtain ⟨name', hstrip, shade, hshade, rfl, rfl⟩ := hsome
  exact ⟨hkind, stripString?_eq_some_iff.mp hstrip, shade, hshade⟩

theorem lightClass_eq_self (hcolor : palette.namedColor? (Token.ofString text).utility = none) :
    palette.lightClass text = text := by
  unfold lightClass
  simp only [hcolor]

theorem lightClass_eq_render {kind name shade : String}
    (hcolor : palette.namedColor? (Token.ofString text).utility = some (kind, name))
    (hshade : palette.light.find? name = some shade) :
    palette.lightClass text = ((Token.ofString text).withUtility (kind ++ shade)).render := by
  unfold lightClass
  simp only [hcolor, hshade]

/-- **What a class comes out as in light mode**: the class itself, or its light shade. -/
theorem lightClass_cases (palette : Palette) (text : String) :
    (palette.namedColor? (Token.ofString text).utility = none ∧
        palette.lightClass text = text) ∨
      ∃ kind name shade,
        palette.namedColor? (Token.ofString text).utility = some (kind, name) ∧
        palette.light.find? name = some shade ∧
        palette.lightClass text = ((Token.ofString text).withUtility (kind ++ shade)).render := by
  cases hcolor : palette.namedColor? (Token.ofString text).utility with
  | none => exact .inl ⟨rfl, lightClass_eq_self hcolor⟩
  | some color =>
    obtain ⟨kind, name⟩ := color
    obtain ⟨-, -, shade, hshade⟩ := of_namedColor?_eq_some hcolor
    exact .inr ⟨kind, name, shade, rfl, hshade, lightClass_eq_render hcolor hshade⟩

/-- **What a class adds for dark mode**: its dark shade, under the variant `dark`. -/
theorem darkClass?_eq_some_iff :
    palette.darkClass? text = some dark ↔ ∃ kind name shade,
      palette.namedColor? (Token.ofString text).utility = some (kind, name) ∧
      palette.dark.find? name = some shade ∧
      (((Token.ofString text).withUtility (kind ++ shade)).withOuterVariant "dark").render =
        dark := by
  simp only [darkClass?, Option.bind_eq_bind, Option.bind_eq_some_iff, Prod.exists,
    Option.pure_def, Option.some.injEq]
  constructor
  · rintro ⟨kind, name, hcolor, shade, hshade, hdark⟩
    exact ⟨kind, name, shade, hcolor, hshade, hdark⟩
  · rintro ⟨kind, name, shade, hcolor, hshade, hdark⟩
    exact ⟨kind, name, hcolor, shade, hshade, hdark⟩

theorem IsUnbroken.isWord_shade {kind name shade : String} (h : palette.IsUnbroken)
    (hkind : kind ∈ colorUtilities)
    (hshade : palette.light.find? name = some shade ∨ palette.dark.find? name = some shade) :
    IsWord (kind ++ shade) := by
  have hkinds : ∀ kind ∈ colorUtilities, IsWord kind := by decide
  refine (hkinds kind hkind).append (h (name, shade) (List.mem_append.mpr ?_))
  exact hshade.imp Entries.mem_of_find? Entries.mem_of_find?

theorem IsUnbroken.isWord_lightClass (h : palette.IsUnbroken) (htext : IsWord text) :
    IsWord (palette.lightClass text) := by
  rcases lightClass_cases palette text with ⟨-, hclass⟩ |
    ⟨kind, name, shade, hcolor, hshade, hclass⟩
  · rwa [hclass]
  · rw [hclass]
    rw [← Token.render_read text] at htext
    exact Token.isWord_withUtility htext
      (h.isWord_shade (of_namedColor?_eq_some hcolor).1 (.inl hshade))

theorem IsUnbroken.isWord_darkClass? (h : palette.IsUnbroken) (htext : IsWord text)
    (hdark : palette.darkClass? text = some dark) : IsWord dark := by
  obtain ⟨kind, name, shade, hcolor, hshade, rfl⟩ := darkClass?_eq_some_iff.mp hdark
  rw [← Token.render_read text] at htext
  refine Token.isWord_withOuterVariant (Token.isWord_withUtility htext ?_) (by decide)
  exact h.isWord_shade (of_namedColor?_eq_some hcolor).1 (.inr hshade)

/-! ### Classes under `dark` -/

/-- A class whose outermost variant is `dark`. -/
def IsDark (text : String) : Prop :=
  stringStartsWith "dark:" text

instance (text : String) : Decidable (IsDark text) :=
  inferInstanceAs (Decidable (_ = true))

theorem isDark_of_darkClass? (h : palette.darkClass? text = some dark) : IsDark dark := by
  obtain ⟨kind, name, shade, -, -, rfl⟩ := darkClass?_eq_some_iff.mp h
  have hmark : "dark" ++ ":" = "dark:" := by decide
  rw [IsDark, Token.render_withOuterVariant, hmark, stringStartsWith_iff, String.toList_append]
  exact List.prefix_append _ _

/-- Whether a class is under `dark` has nothing to do with its shade. -/
theorem isDark_withUtility {token : Token} {kind name shade : String}
    (hkind : kind ∈ colorUtilities) :
    IsDark (token.withUtility (kind ++ shade)).render ↔
      IsDark (token.withUtility (kind ++ name)).render := by
  have hkinds : ∀ kind ∈ colorUtilities, differ "dark:".toList kind.toList := by decide
  have hmark : "dark:".toList = "dark".toList ++ [':'] := by decide
  have hrender (rest : String) : ∃ more,
      (token.withUtility (kind ++ rest)).render.toList = token.chain ++ (kind.toList ++ more) := by
    rw [Token.toList_render, Token.stem_withUtility, String.toList_append]
    exact ⟨rest.toList ++ _, by simp only [List.append_assoc]; rfl⟩
  obtain ⟨more, hmore⟩ := hrender shade
  obtain ⟨more', hmore'⟩ := hrender name
  simp only [IsDark, stringStartsWith_iff, hmore, hmore', Token.chain]
  -- a class without variants begins with `kind`, and any other one with its variants
  cases token.variant with
  | none =>
    have hnone (more : List Char) : ¬"dark:".toList <+: [] ++ (kind.toList ++ more) :=
      not_prefix_of_differ (hkinds kind hkind) more
    exact iff_of_false (hnone more) (hnone more')
  | some variant =>
    simp only [List.append_assoc, List.singleton_append, hmark]
    rw [prefix_append_cons_iff (by decide) (kind.toList ++ more),
      prefix_append_cons_iff (by decide) (kind.toList ++ more')]

theorem isDark_lightClass_iff : IsDark (palette.lightClass text) ↔ IsDark text := by
  rcases lightClass_cases palette text with ⟨-, hclass⟩ | ⟨kind, name, shade, hcolor, -, hclass⟩
  · rw [hclass]
  · obtain ⟨hkind, hutility, -⟩ := of_namedColor?_eq_some hcolor
    have htext : ((Token.ofString text).withUtility (kind ++ name)).render = text := by
      rw [← hutility]
      exact Token.render_read text
    rw [hclass, isDark_withUtility hkind, htext]

/-! ### Two sets -/

variable {light out : String}

/-- **The classes of a recolored list**: the light ones, once each, and then the ones for dark
mode, once each. -/
theorem words_recolor (h : palette.IsUnbroken) (text : String) :
    words (palette.recolor text) =
      firsts ((words (colorBorder text)).map palette.lightClass) ++
        firsts ((words (colorBorder text)).filterMap palette.darkClass?) := by
  refine words_unwords_of_isWord fun out hout => ?_
  rw [List.mem_append, mem_firsts, mem_firsts] at hout
  rcases hout with hlight | hdark
  · obtain ⟨c, hc, rfl⟩ := List.mem_map.mp hlight
    exact h.isWord_lightClass (isWord_of_mem_words hc)
  · obtain ⟨c, hc, hout⟩ := List.mem_filterMap.mp hdark
    exact h.isWord_darkClass? (isWord_of_mem_words hc) hout

/-- **No class comes out twice exactly if** no class that was under `dark` already is the dark
class of another one. -/
theorem nodup_recolor_iff (h : palette.IsUnbroken) (text : String) :
    (words (palette.recolor text)).Nodup ↔
      ∀ c ∈ words text, IsDark c → ∀ d ∈ words (colorBorder text),
        palette.darkClass? d ≠ some (palette.lightClass c) := by
  rw [words_recolor h, List.nodup_append]
  simp only [nodup_firsts, true_and, mem_firsts, List.mem_map, List.mem_filterMap]
  constructor
  · intro hapart c hc _ d hd hdark
    exact hapart _ ⟨c, mem_words_colorBorder.mpr (.inl hc), rfl⟩ _ ⟨d, hd, hdark⟩ rfl
  · -- a light class that is also a dark one is under `dark`, and so is the class it came from
    rintro hall out ⟨c, hc, hout⟩ _ ⟨d, hd, hdark⟩ rfl
    have hisDark : IsDark c := by
      rw [← isDark_lightClass_iff, hout]
      exact isDark_of_darkClass? hdark
    rcases mem_words_colorBorder.mp hc with htext | ⟨-, rfl⟩
    · exact hall c htext hisDark d hd (hout ▸ hdark)
    · exact absurd hisDark (by decide)

/-- In a list with repetitions, a class under `dark` and a border, that is so for slate. -/
theorem nodup_recolor_slate :
    BaseColor.slate.palette.IsUnbroken ∧
      (words (BaseColor.slate.palette.recolor
        "bg-background border bg-background dark:p-4")).Nodup := by
  refine ⟨isUnbroken_base .slate, (nodup_recolor_iff (isUnbroken_base .slate) _).mpr ?_⟩
  decide

/-- **A class can come out twice**: the dark class of `bg-background` may stand in the list. -/
theorem not_forall_nodup_recolor :
    ¬∀ (palette : Palette) (text : String), (words (palette.recolor text)).Nodup := by
  intro h
  exact absurd (h BaseColor.slate.palette "bg-background dark:bg-slate-950") (by decide)

/-! ### The colour of a border -/

/-- How often a class comes out: once for light mode, and once for dark mode. -/
theorem count_recolor (h : palette.IsUnbroken) :
    (words (palette.recolor text)).count out =
      (if ∃ c ∈ words (colorBorder text), palette.lightClass c = out then 1 else 0) +
        if ∃ c ∈ words (colorBorder text), palette.darkClass? c = some out then 1 else 0 := by
  rw [words_recolor h, List.count_append, (nodup_firsts _).count, (nodup_firsts _).count]
  simp only [mem_firsts, List.mem_map, List.mem_filterMap]

/-- **What the colour of the border comes out as**: the two shades of `border`. -/
theorem border_shades {dark : String} (hlight : palette.light.find? "border" = some light)
    (hdark : palette.dark.find? "border" = some dark) :
    palette.lightClass "border-border" = "border-" ++ light ∧
      palette.darkClass? "border-border" = some ("dark:border-" ++ dark) := by
  have hread : Token.ofString "border-border" = ⟨none, "border-border", none⟩ := by decide
  have hcolor : palette.namedColor? (Token.ofString "border-border").utility =
      some ("border-", "border") := by
    have hbg : stripString? "bg-" "border-border" = none := by decide
    have htext : stripString? "text-" "border-border" = none := by decide
    have hborder : stripString? "border-" "border-border" = some "border" := by decide
    rw [hread]
    simp [namedColor?, colorUtilities, hbg, htext, hborder, hlight]
  constructor
  · rw [lightClass_eq_render hcolor hlight, hread]
    simp [Token.withUtility, Token.render]
  · rw [darkClass?_eq_some_iff]
    refine ⟨"border-", "border", dark, hcolor, hdark, ?_⟩
    rw [hread, Token.render_withOuterVariant, ← String.toList_inj]
    simp [Token.withUtility, Token.render]

/-- A class `border` names no colour. -/
theorem lightClass_border (palette : Palette) : palette.lightClass "border" = "border" := by
  have hread : (Token.ofString "border").utility = "border" := by decide
  have hkinds : ∀ kind ∈ colorUtilities, stripString? kind "border" = none := by decide
  refine lightClass_eq_self ?_
  rw [hread, namedColor?, List.findSome?_eq_none_iff]
  intro kind hkind
  simp [hkinds kind hkind]

/-- **Whether a border follows the palette**: each of its two shades is there once if the border
stands between two spaces or another class asks for that shade, and else not at all. Classes under
`dark` that come out as the shade for dark mode are left aside. -/
theorem count_recolor_border {dark : String} (h : palette.IsUnbroken)
    (hborder : "border" ∈ words text) (hlight : palette.light.find? "border" = some light)
    (hdark : palette.dark.find? "border" = some dark) :
    "border" ∈ words (palette.recolor text) ∧
      (words (palette.recolor text)).count ("border-" ++ light) =
        (if stringContains " border " text ∨
            ∃ c ∈ words text, palette.lightClass c = "border-" ++ light
          then 1 else 0) ∧
      ((∀ c ∈ words text, palette.lightClass c ≠ "dark:border-" ++ dark) →
        (words (palette.recolor text)).count ("dark:border-" ++ dark) =
          if stringContains " border " text ∨
            ∃ c ∈ words text, palette.darkClass? c = some ("dark:border-" ++ dark)
          then 1 else 0) := by
  obtain ⟨hlightBorder, hdarkBorder⟩ := border_shades hlight hdark
  have hlightMode : ¬IsDark ("border-" ++ light) := by
    rw [← hlightBorder, isDark_lightClass_iff]
    decide
  refine ⟨?_, ?_, fun hapart => ?_⟩
  · have hmem : "border" ∈ (words (colorBorder text)).map palette.lightClass :=
      List.mem_map.mpr ⟨"border", mem_words_colorBorder.mpr (.inl hborder), lightClass_border _⟩
    rw [words_recolor h]
    exact List.mem_append_left _ (mem_firsts.mpr hmem)
  · have hnone : ¬∃ c ∈ words (colorBorder text),
        palette.darkClass? c = some ("border-" ++ light) := by
      rintro ⟨c, -, hc⟩
      exact hlightMode (isDark_of_darkClass? hc)
    rw [count_recolor h, if_neg hnone]
    simp only [exists_mem_words_colorBorder, hlightBorder, and_true, Nat.add_zero]
  · have hnone : ¬∃ c ∈ words (colorBorder text),
        palette.lightClass c = "dark:border-" ++ dark := by
      rw [exists_mem_words_colorBorder, hlightBorder]
      rintro (⟨-, heq⟩ | ⟨c, hc, heq⟩)
      · exact hlightMode (heq ▸ isDark_of_darkClass? hdarkBorder)
      · exact hapart c hc heq
    rw [count_recolor h, if_neg hnone]
    simp only [exists_mem_words_colorBorder, hdarkBorder, and_true, Nat.zero_add]

/-- Between two classes, a border has both shades. -/
theorem count_recolor_border_between :
    BaseColor.slate.palette.IsUnbroken ∧ "border" ∈ words "rounded border p-4" ∧
      (words (BaseColor.slate.palette.recolor "rounded border p-4")).count
        ("border-" ++ "slate-200") = 1 ∧
      (words (BaseColor.slate.palette.recolor "rounded border p-4")).count
        ("dark:border-" ++ "slate-800") = 1 := by
  have hunbroken := isUnbroken_base .slate
  have hborder : "border" ∈ words "rounded border p-4" := by decide
  have hlight : BaseColor.slate.palette.light.find? "border" = some "slate-200" := by decide
  have hdark : BaseColor.slate.palette.dark.find? "border" = some "slate-800" := by decide
  obtain ⟨-, hlightCount, hdarkCount⟩ := count_recolor_border hunbroken hborder hlight hdark
  have hbetween : stringContains " border " "rounded border p-4" := by decide
  refine ⟨hunbroken, hborder, ?_, ?_⟩
  · rw [hlightCount, if_pos (.inl hbetween)]
  · rw [hdarkCount (by decide), if_pos (.inl hbetween)]

/-- **Not every border follows the palette**: a border at the end of a list does not. -/
theorem not_forall_count_recolor_border :
    ¬∀ (palette : Palette) (text light dark : String),
      palette.light.find? "border" = some light → palette.dark.find? "border" = some dark →
      "border" ∈ words text →
      "border" ∈ words (palette.recolor text) ∧
        (words (palette.recolor text)).count ("border-" ++ light) = 1 ∧
        (words (palette.recolor text)).count ("dark:border-" ++ dark) = 1 := by
  intro h
  obtain ⟨-, hlight, -⟩ := h BaseColor.slate.palette "border" "slate-200" "slate-800" (by rfl)
    (by rfl) (by decide)
  exact absurd hlight (by decide)

end Classes

end Palette

end Restyle.Class
