import Mathlib.Data.List.Infix
import Mathlib.Tactic.SplitIfs
import Restyle.Class.Direction
import Restyle.Class.Palette
import Restyle.Class.Prefixed

/-!
# Classes are read as they are written

A class is cut at the last slash and at the last colon that no bracket encloses. Whether this
finds the parts that a class was put together from is a matter of what the parts hold. In a
well-formed class (`Restyle.Class.Token.IsWellFormed`) the brackets of each part match, so that
the number of brackets that are open is the same behind a part as in front of it
(`Restyle.Class.IsBalanced.depthBehind_eq`), and the marks stand where they are looked for: the
class is cut where it is joined (`Restyle.Class.Token.IsCut`).

One thing is left. A variant may have a name, as in `group-hover/item:flex`, and a slash that is
meant for the name is the last one where there is no opacity. So a well-formed class is read as
it was written exactly if it has an opacity or its variants have no name
(`Restyle.Class.Token.ofString_render_iff`). Then all transformations change its utility and
leave the rest alone (`Restyle.Class.ActsOnUtility`); otherwise the front of the variants is
taken for the utility.
-/

namespace Restyle.Class

/-! ### Brackets -/

/-- What a character adds to the number of open brackets. -/
def bracketWeight (c : Char) : Int :=
  if c = '[' ∨ c = '(' then 1 else if c = ']' ∨ c = ')' then -1 else 0

/-- What is no bracket leaves as many open as there were. -/
theorem nextDepth_eq_self {c : Char} (h : bracketWeight c = 0) (depth : Nat) :
    nextDepth depth c = depth := by
  unfold bracketWeight at h
  unfold nextDepth
  split_ifs at h ⊢ <;> omega

/-- The brackets that a text opens, less those that it closes. -/
def surplus : List Char → Int
  | [] => 0
  | c :: rest => bracketWeight c + surplus rest

/-- **The brackets of a text match**: none is closed that is not open, and none stays open. -/
structure IsBalanced (cs : List Char) : Prop where
  nonneg : ∀ front, front <+: cs → 0 ≤ surplus front
  closed : surplus cs = 0

instance (cs : List Char) : Decidable (IsBalanced cs) :=
  decidable_of_iff ((∀ front ∈ cs.inits, 0 ≤ surplus front) ∧ surplus cs = 0)
    ⟨fun h => ⟨fun front hfront => h.1 front ((List.mem_inits front cs).mpr hfront), h.2⟩,
      fun h => ⟨fun front hfront => h.nonneg front ((List.mem_inits front cs).mp hfront), h.closed⟩⟩

/-- A character stands somewhere in a text where no bracket is open. -/
def StandsOutside (mark : Char) (cs : List Char) : Prop :=
  ∃ front back, cs = front ++ mark :: back ∧ surplus front = 0

theorem standsOutside_iff {mark : Char} {cs : List Char} :
    StandsOutside mark cs ↔
      ∃ n ∈ List.range cs.length, cs[n]? = some mark ∧ surplus (cs.take n) = 0 := by
  constructor
  · rintro ⟨front, back, rfl, hsurplus⟩
    exact ⟨front.length, by simp, by simp, by simpa using hsurplus⟩
  · rintro ⟨n, -, hmark, hsurplus⟩
    obtain ⟨hn, rfl⟩ := List.getElem?_eq_some_iff.mp hmark
    exact ⟨cs.take n, cs.drop (n + 1), by simp, hsurplus⟩

instance (mark : Char) (cs : List Char) : Decidable (StandsOutside mark cs) :=
  decidable_of_iff _ standsOutside_iff.symm

/-- The number of brackets open behind a text, `depth` of them being open in front of it. -/
def depthBehind (depth : Nat) (cs : List Char) : Nat :=
  cs.foldl nextDepth depth

/-- Where no bracket is closed that is not open, the brackets are counted exactly. -/
theorem depthBehind_eq {depth : Nat} {cs : List Char}
    (h : ∀ front, front <+: cs → 0 ≤ depth + surplus front) :
    (depthBehind depth cs : Int) = depth + surplus cs := by
  induction cs generalizing depth with
  | nil => simp [depthBehind, surplus]
  | cons c rest ih =>
    have hfirst : (nextDepth depth c : Int) = depth + bracketWeight c := by
      have hc := h [c] (by simp)
      simp only [surplus] at hc
      unfold nextDepth bracketWeight at *
      split_ifs at hc ⊢ <;> omega
    have hrest : ∀ front, front <+: rest → 0 ≤ (nextDepth depth c : Int) + surplus front := by
      intro front hfront
      have hwhole := h (c :: front) (List.cons_prefix_cons.mpr ⟨rfl, hfront⟩)
      simp only [surplus] at hwhole
      omega
    calc (depthBehind depth (c :: rest) : Int)
        = depthBehind (nextDepth depth c) rest := rfl
      _ = nextDepth depth c + surplus rest := ih hrest
      _ = depth + surplus (c :: rest) := by
        simp only [surplus]
        omega

section Balanced

variable {mark : Char} {cs xs ys : List Char}

/-- A text whose brackets match leaves as many open as there were. -/
theorem IsBalanced.depthBehind_eq (h : IsBalanced cs) : depthBehind 0 cs = 0 := by
  have hdepth : (depthBehind 0 cs : Int) = (0 : Nat) + surplus cs :=
    Class.depthBehind_eq fun front hfront => by
      have := h.nonneg front hfront
      omega
  have := h.closed
  omega

/-- In such a text, no bracket is open where as many were closed as opened. -/
theorem IsBalanced.depthBehind_prefix (h : IsBalanced cs) {front : List Char}
    (hfront : front <+: cs) : depthBehind 0 front = 0 ↔ surplus front = 0 := by
  have hdepth : (depthBehind 0 front : Int) = (0 : Nat) + surplus front :=
    Class.depthBehind_eq fun first hfirst => by
      have := h.nonneg first (hfirst.trans hfront)
      omega
  omega

theorem depthBehind_append (depth : Nat) (xs ys : List Char) :
    depthBehind depth (xs ++ ys) = depthBehind (depthBehind depth xs) ys :=
  List.foldl_append

/-! ### Cuts -/

/-- There is no cut where each occurrence of the mark is enclosed. -/
theorem cutLast?_eq_none_iff {depth : Nat} :
    cutLast? mark depth cs = none ↔
      ∀ front back, cs = front ++ mark :: back → depthBehind depth front ≠ 0 := by
  induction cs generalizing depth with
  | nil => simp [cutLast?]
  | cons c rest ih =>
    rw [cutLast?]
    constructor
    · intro h front back heq hdepth
      cases hrest : cutLast? mark (nextDepth depth c) rest with
      | some cut => simp [hrest] at h
      | none =>
        have hfirst : ¬(c = mark ∧ depth = 0) := by simpa [hrest] using h
        cases front with
        | nil => exact hfirst ⟨(List.cons.inj heq).1, hdepth⟩
        | cons d front =>
          obtain ⟨rfl, hbehind⟩ := List.cons.inj heq
          exact ih.mp hrest front back hbehind hdepth
    · intro h
      have hrest : cutLast? mark (nextDepth depth c) rest = none :=
        ih.mpr fun front back heq => h (c :: front) back (by rw [heq, List.cons_append])
      have hfirst : ¬(c = mark ∧ depth = 0) := by
        rintro ⟨rfl, rfl⟩
        exact h [] rest rfl rfl
      simp [hrest, hfirst]

/-- In a text whose brackets match, there is a cut exactly where the mark stands outside. -/
theorem IsBalanced.cutLast?_eq_none_iff (h : IsBalanced cs) :
    cutLast? mark 0 cs = none ↔ ¬StandsOutside mark cs := by
  rw [Class.cutLast?_eq_none_iff]
  constructor
  · rintro hnone ⟨front, back, rfl, hsurplus⟩
    exact hnone front back rfl ((h.depthBehind_prefix (List.prefix_append _ _)).mpr hsurplus)
  · rintro hnone front back rfl hdepth
    exact hnone ⟨front, back, rfl, (h.depthBehind_prefix (List.prefix_append _ _)).mp hdepth⟩

/-- The last cut of two texts is in the second one, if it has any. -/
theorem cutLast?_append (depth : Nat) (xs ys : List Char) :
    cutLast? mark depth (xs ++ ys) =
      ((cutLast? mark (depthBehind depth xs) ys).map fun cut => (xs ++ cut.1, cut.2)).or
        ((cutLast? mark depth xs).map fun cut => (cut.1, cut.2 ++ ys)) := by
  induction xs generalizing depth with
  | nil => simp [cutLast?, depthBehind]
  | cons c xs ih =>
    have hdepth : depthBehind (nextDepth depth c) xs = depthBehind depth (c :: xs) := rfl
    rw [List.cons_append, cutLast?, ih, hdepth, cutLast?]
    cases cutLast? mark (depthBehind depth (c :: xs)) ys with
    | some cut => simp
    | none =>
      cases cutLast? mark (nextDepth depth c) xs with
      | some cut => simp
      | none => by_cases hfirst : c = mark ∧ depth = 0 <;> simp [hfirst]

/-- A mark between two texts is where they are cut, if it stands nowhere outside in the second
one. -/
theorem cutLast?_between (hmark : bracketWeight mark = 0) (hxs : depthBehind 0 xs = 0)
    (hys : cutLast? mark 0 ys = none) : cutLast? mark 0 (xs ++ mark :: ys) = some (xs, ys) := by
  have hcut : cutLast? mark 0 (mark :: ys) = some ([], ys) := by
    rw [cutLast?, nextDepth_eq_self hmark, hys]
    simp
  rw [cutLast?_append, hxs, hcut]
  simp

/-- Behind two texts with a mark between them that is looked for by nobody, there is a cut
exactly if there is one in the first or in the second. -/
theorem cutLast?_behind {other : Char} (hother : bracketWeight other = 0) (hne : other ≠ mark)
    (hxs : depthBehind 0 xs = 0) (hys : cutLast? mark 0 ys = none) :
    cutLast? mark 0 (xs ++ other :: ys) = none ↔ cutLast? mark 0 xs = none := by
  have hnone : cutLast? mark 0 (other :: ys) = none := by
    rw [cutLast?, nextDepth_eq_self hother, hys]
    simp [hne]
  rw [cutLast?_append, hxs, hnone]
  simp

end Balanced

/-! ### Classes that are cut where they are joined -/

namespace Token

/-- The text in front of the opacity. -/
def stem (token : Token) : List Char :=
  (match token.variant with
    | some variant => variant.toList ++ [':']
    | none => []) ++ token.utility.toList

theorem toList_render (token : Token) :
    token.render.toList = token.stem ++ (match token.opacity with
      | some opacity => '/' :: opacity.toList
      | none => []) := by
  rw [render, stem]
  cases token.variant <;> cases token.opacity <;> simp

/-- **A class is cut where it is joined**: the last slash and the last colon outside the brackets
are the ones between its parts. -/
structure IsCut (token : Token) : Prop where
  variant : ∀ variant ∈ token.variant, depthBehind 0 variant.toList = 0
  utility : cutLast? ':' 0 token.utility.toList = none
  opacity : ∀ opacity ∈ token.opacity,
    depthBehind 0 token.stem = 0 ∧ cutLast? '/' 0 opacity.toList = none
  stem : token.opacity = none → cutLast? '/' 0 token.stem = none

theorem IsCut.cutLast?_stem {token : Token} (h : token.IsCut) :
    cutLast? ':' 0 token.stem =
      token.variant.map fun variant => (variant.toList, token.utility.toList) := by
  rw [Token.stem]
  cases hvariant : token.variant with
  | none => exact h.utility
  | some variant =>
    dsimp only
    rw [List.append_assoc, List.singleton_append]
    exact cutLast?_between (by decide) (h.variant variant hvariant) h.utility

/-- **A class that is cut where it is joined is read as it is written.** -/
theorem IsCut.ofString_render {token : Token} (h : token.IsCut) :
    ofString token.render = token := by
  have hcolon := h.cutLast?_stem
  have htext := toList_render token
  obtain ⟨variant, utility, opacity⟩ := token
  cases opacity with
  | some opacity =>
    obtain ⟨hdepth, hopacity⟩ := h.opacity opacity rfl
    have hcut := cutLast?_between (by decide) hdepth hopacity
    rw [ofString, htext]
    simp only [hcut, hcolon]
    cases variant <;> simp [Token.stem]
  | none =>
    have hcut := h.stem rfl
    rw [ofString, htext]
    simp only [List.append_nil, hcut, hcolon]
    cases variant <;> simp [Token.stem]

end Token

/-! ### Well-formed classes -/

/-- A chain of variants: some texts with colons between them, each of which holds something and
has no colon of its own outside its brackets. -/
def IsChain (cs : List Char) : Prop :=
  ∃ variants : List (List Char), variants ≠ [] ∧ cs = [':'].intercalate variants ∧
    ∀ variant ∈ variants, variant ≠ [] ∧ ¬StandsOutside ':' variant

namespace Token

/-- **A class is well-formed** if the brackets of its parts match and no mark stands where it
would be taken for the end of a part. Variants may have a name behind a slash. -/
structure IsWellFormed (token : Token) : Prop where
  variant : ∀ variant ∈ token.variant, IsBalanced variant.toList ∧ IsChain variant.toList
  utility_ne : token.utility ≠ ""
  utility : IsBalanced token.utility.toList
  utility_outside : ¬StandsOutside ':' token.utility.toList ∧
    ¬StandsOutside '/' token.utility.toList
  opacity : ∀ opacity ∈ token.opacity, IsBalanced opacity.toList ∧
    ¬StandsOutside '/' opacity.toList ∧ ¬StandsOutside ':' opacity.toList

/-- The last slash of a class is that of its opacity: it has one, or none of its variants has a
name. -/
def IsUnambiguous (token : Token) : Prop :=
  token.opacity = none → ∀ variant ∈ token.variant, ¬StandsOutside '/' variant.toList

variable {token : Token}

theorem IsWellFormed.depthBehind_stem (h : token.IsWellFormed) : depthBehind 0 token.stem = 0 := by
  rw [stem, depthBehind_append]
  cases hvariant : token.variant with
  | none => exact h.utility.depthBehind_eq
  | some variant =>
    have hdepth := (h.variant variant hvariant).1.depthBehind_eq
    dsimp only
    rw [depthBehind_append, hdepth]
    exact h.utility.depthBehind_eq

/-- In front of the opacity, a slash belongs to a variant. -/
theorem IsWellFormed.cutLast?_slash (h : token.IsWellFormed) :
    cutLast? '/' 0 token.stem = none ↔
      ∀ variant ∈ token.variant, ¬StandsOutside '/' variant.toList := by
  have hutility : cutLast? '/' 0 token.utility.toList = none :=
    h.utility.cutLast?_eq_none_iff.mpr h.utility_outside.2
  rw [stem]
  cases hvariant : token.variant with
  | none => simpa using hutility
  | some variant =>
    have hbalanced := (h.variant variant hvariant).1
    dsimp only
    rw [List.append_assoc, List.singleton_append,
      cutLast?_behind (by decide) (by decide) hbalanced.depthBehind_eq hutility,
      hbalanced.cutLast?_eq_none_iff]
    simp

theorem IsWellFormed.isCut (h : token.IsWellFormed) (hslash : token.IsUnambiguous) :
    token.IsCut where
  variant := fun variant hvariant => (h.variant variant hvariant).1.depthBehind_eq
  utility := h.utility.cutLast?_eq_none_iff.mpr h.utility_outside.1
  opacity := by
    intro opacity hopacity
    obtain ⟨hbalanced, houtside, -⟩ := h.opacity opacity hopacity
    exact ⟨h.depthBehind_stem, hbalanced.cutLast?_eq_none_iff.mpr houtside⟩
  stem := fun hopacity => h.cutLast?_slash.mpr (hslash hopacity)

/-- **A class is read as it was written** if it is well-formed and unambiguous. -/
theorem IsWellFormed.ofString_render (h : token.IsWellFormed) (hslash : token.IsUnambiguous) :
    Token.ofString token.render = token :=
  (h.isCut hslash).ofString_render

/-- An ambiguous class is read with an opacity, which it does not have. -/
theorem IsWellFormed.isUnambiguous (h : token.IsWellFormed)
    (hread : Token.ofString token.render = token) : token.IsUnambiguous := by
  intro hopacity
  rw [← h.cutLast?_slash]
  by_contra hcut
  obtain ⟨⟨before, after⟩, hsome⟩ := Option.ne_none_iff_exists'.mp hcut
  have htext : token.render.toList = token.stem := by
    rw [toList_render, hopacity]
    exact List.append_nil _
  have hwrong : (Token.ofString token.render).opacity = some (String.ofList after) := by
    rw [Token.ofString, htext, hsome]
    dsimp only
    split <;> rfl
  rw [hread, hopacity] at hwrong
  cases hwrong

end Token

/-! ### Transformations -/

/-- A transformation of classes **acts on the utility** of a class if it puts another one in its
place, under the same variants and with the same opacity. -/
def ActsOnUtility (transform : String → String) (token : Token) : Prop :=
  ∃ utility, transform token.render = (token.withUtility utility).render

/-- A text is a **companion** of a class under a variant if it has another utility, and that
variant outside the ones of the class. -/
def IsCompanion (variant : String) (token : Token) (text : String) : Prop :=
  ∃ utility, text = ((token.withUtility utility).withOuterVariant variant).render

section Transformations

variable {token : Token} (hread : Token.ofString token.render = token)
include hread

/-- What replaces the utility of what is read, or leaves the class alone, acts on the utility. -/
theorem actsOnUtility_of_read {transform : String → String} (utility? : Option String)
    (h : transform token.render = match utility? with
      | some utility => ((Token.ofString token.render).withUtility utility).render
      | none => token.render) : ActsOnUtility transform token := by
  rw [hread] at h
  cases utility? with
  | some utility => exact ⟨utility, h⟩
  | none => exact ⟨token.utility, h⟩

theorem actsOnUtility_prefixClass (mark : String) : ActsOnUtility (prefixClass mark) token := by
  refine actsOnUtility_of_read hread
    (prefixUtility? mark (Token.ofString token.render).utility) ?_
  unfold prefixClass
  rfl

theorem actsOnUtility_logicalClass (hmarker : token.render ≠ flipMarker) :
    ActsOnUtility logicalClass token :=
  actsOnUtility_of_read hread (logicalUtility? (Token.ofString token.render)) (if_neg hmarker)

theorem actsOnUtility_lightClass (palette : Palette) :
    ActsOnUtility palette.lightClass token := by
  refine actsOnUtility_of_read hread
    ((palette.namedColor? (Token.ofString token.render).utility).bind fun color =>
      (palette.light.find? color.2).map (color.1 ++ ·)) ?_
  unfold Palette.lightClass
  cases hcolor : palette.namedColor? (Token.ofString token.render).utility with
  | none => simp [hcolor]
  | some color =>
    cases hshade : palette.light.find? color.2 <;> simp [hcolor, hshade]

theorem isCompanion_of_darkClass? {palette : Palette} {text : String}
    (h : palette.darkClass? token.render = some text) : IsCompanion "dark" token text := by
  simp only [Palette.darkClass?, hread, Option.bind_eq_bind, Option.bind_eq_some_iff] at h
  obtain ⟨⟨kind, name⟩, -, shade, -, htext⟩ := h
  exact ⟨kind ++ shade, (Option.some.inj htext).symm⟩

theorem isCompanion_of_mem_classHelpers {text : String} (h : text ∈ classHelpers token.render) :
    IsCompanion "rtl" token text := by
  rw [classHelpers, hread] at h
  split_ifs at h with hmarker
  · cases h
  rcases List.mem_append.mp h with hshift | hmirrored
  · split_ifs at hshift with hvariant
    · cases hshift
    obtain ⟨utility, -, rfl⟩ := Option.map_eq_some_iff.mp (Option.mem_toList.mp hshift)
    exact ⟨utility, rfl⟩
  · obtain ⟨pair, -, rfl⟩ := Option.map_eq_some_iff.mp (Option.mem_toList.mp hmirrored)
    exact ⟨pair.2, rfl⟩

end Transformations

/-- **A well-formed class is read as it was written exactly if it is unambiguous**: if it has an
opacity, or no variant with a name. Then a prefix, a logical direction and a shade of a palette
change its utility and nothing else, and what is added for dark mode and for text from right to
left has all its variants. The marker of a flip, which is no utility, is replaced as a whole. -/
theorem Token.ofString_render_iff {token : Token} (h : token.IsWellFormed) :
    (Token.ofString token.render = token ↔ token.IsUnambiguous) ∧
      (token.IsUnambiguous →
        (∀ mark, ActsOnUtility (prefixClass mark) token) ∧
        (∀ palette : Palette, ActsOnUtility palette.lightClass token) ∧
        (token.render ≠ flipMarker → ActsOnUtility logicalClass token) ∧
        (∀ (palette : Palette) (text), palette.darkClass? token.render = some text →
          IsCompanion "dark" token text) ∧
        ∀ text ∈ classHelpers token.render, IsCompanion "rtl" token text) := by
  refine ⟨⟨h.isUnambiguous, h.ofString_render⟩, fun hslash => ?_⟩
  have hread := h.ofString_render hslash
  exact ⟨actsOnUtility_prefixClass hread, actsOnUtility_lightClass hread,
    actsOnUtility_logicalClass hread, fun _ _ => isCompanion_of_darkClass? hread,
    fun _ => isCompanion_of_mem_classHelpers hread⟩

/-- A slash in brackets and one of a name, in front of an opacity. -/
theorem Token.ofString_render_iff_namedVariant :
    let token : Token := ⟨some "group-hover/item:[&_a:b]", "bg-[url(a/b)]", some "50"⟩
    token.IsWellFormed ∧ token.IsUnambiguous ∧ Token.ofString token.render = token ∧
      ActsOnUtility (prefixClass "tw-") token := by
  intro token
  have hchain : IsChain "group-hover/item:[&_a:b]".toList :=
    ⟨["group-hover/item".toList, "[&_a:b]".toList], by decide, by decide, by decide⟩
  have hformed : token.IsWellFormed :=
    { variant := by rintro variant ⟨⟩; exact ⟨by decide, hchain⟩
      utility_ne := by decide
      utility := by decide
      utility_outside := by decide
      opacity := by rintro opacity ⟨⟩; decide }
  have hslash : token.IsUnambiguous := by rintro ⟨⟩
  obtain ⟨hread, hacts⟩ := Token.ofString_render_iff hformed
  exact ⟨hformed, hslash, hread.mpr hslash, (hacts hslash).1 "tw-"⟩

/-- **Not every well-formed class is read as it was written**: the slash of a name is taken for
that of an opacity. -/
theorem Token.not_forall_ofString_render :
    ¬∀ token : Token, token.IsWellFormed → Token.ofString token.render = token := by
  intro h
  have hchain : IsChain "group-hover/item".toList :=
    ⟨["group-hover/item".toList], by decide, by decide, by decide⟩
  have hread := h ⟨some "group-hover/item", "flex", none⟩
    { variant := by rintro variant ⟨⟩; exact ⟨by decide, hchain⟩
      utility_ne := by decide
      utility := by decide
      utility_outside := by decide
      opacity := by rintro opacity ⟨⟩ }
  exact absurd hread (by decide)

end Restyle.Class
