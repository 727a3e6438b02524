import Restyle.Proofs.Class.Reading

/-!
# Brackets in the parts of a class

A class may hold any brackets. Where they match, it is told from the text alone what a cut at top
level is: one that leaves matching brackets on both sides of a mark
(`Restyle.Class.isBalanced_between_iff`). A class is **parted** at its marks if the brackets of
each part match and no mark is left outside of them where it would be the place of another cut
(`Restyle.Class.Token.IsParted`). This is what a class that is cut where it is joined has on top
if the brackets of the whole match (`Restyle.Class.Token.isParted_iff`).

So the three parts that are read from a text make it up again, whatever it holds, and they are the
one way to part it if its brackets match (`Restyle.Class.Token.isParted_ofString_iff`).
-/

namespace Restyle.Class

/-! ### Matching brackets beside a mark -/

section Brackets

variable {mark : Char} {xs ys : List Char}

theorem surplus_append (xs ys : List Char) : surplus (xs ++ ys) = surplus xs + surplus ys := by
  induction xs with
  | nil => simp [surplus]
  | cons c xs ih => rw [List.cons_append, surplus, surplus, ih, Int.add_assoc]

/-- Where as many brackets were closed as opened, those that match do so on either side. -/
theorem isBalanced_append_iff (h : surplus xs = 0) :
    IsBalanced (xs ++ ys) ↔ IsBalanced xs ∧ IsBalanced ys := by
  have hbehind (front : List Char) : surplus (xs ++ front) = surplus front := by
    rw [surplus_append, h, Int.zero_add]
  constructor
  · intro hboth
    refine ⟨⟨fun front hfront => ?_, h⟩, ⟨fun front hfront => ?_, ?_⟩⟩
    · exact hboth.nonneg front (hfront.trans (List.prefix_append xs ys))
    · rw [← hbehind]
      exact hboth.nonneg _ ((List.prefix_append_right_inj xs).mpr hfront)
    · rw [← hbehind]
      exact hboth.closed
  · rintro ⟨hxs, hys⟩
    refine ⟨fun front hfront => ?_, (hbehind ys).trans hys.closed⟩
    -- a front of both ends in the first text, or is all of it with a front of the second one
    rcases List.prefix_or_prefix_of_prefix hfront (List.prefix_append xs ys) with hin | ⟨rest, rfl⟩
    · exact hxs.nonneg front hin
    · rw [hbehind]
      exact hys.nonneg rest ((List.prefix_append_right_inj xs).mp hfront)

theorem isBalanced_cons_iff (hmark : bracketWeight mark = 0) :
    IsBalanced (mark :: ys) ↔ IsBalanced ys := by
  have hsurplus : surplus [mark] = 0 := by simp [surplus, hmark]
  have hbalanced : IsBalanced [mark] := by
    refine ⟨fun front hfront => ?_, hsurplus⟩
    rcases List.prefix_cons_iff.mp hfront with rfl | ⟨rest, rfl, hrest⟩
    · exact Int.le_refl 0
    · rw [List.prefix_nil.mp hrest]
      exact Int.le_of_eq hsurplus.symm
  rw [← List.singleton_append, isBalanced_append_iff hsurplus, and_iff_right hbalanced]

/-- **Beside a mark that no bracket encloses**, brackets match on either side. -/
theorem isBalanced_between_iff (hmark : bracketWeight mark = 0) (hxs : depthBehind 0 xs = 0) :
    IsBalanced (xs ++ mark :: ys) ↔ IsBalanced xs ∧ IsBalanced ys := by
  constructor
  · intro h
    have hsurplus := (h.depthBehind_prefix (List.prefix_append xs _)).mp hxs
    rwa [isBalanced_append_iff hsurplus, isBalanced_cons_iff hmark] at h
  · rintro ⟨hfront, hback⟩
    exact (isBalanced_append_iff hfront.closed).mpr ⟨hfront, (isBalanced_cons_iff hmark).mpr hback⟩

end Brackets

/-! ### Parted classes -/

namespace Token

/-- **A class is parted** at its marks if the brackets of each part match, and what stands outside
of them is a colon only among the variants and a slash only in front of the opacity. -/
structure IsParted (token : Token) : Prop where
  variant : ∀ variant ∈ token.variant, IsBalanced variant.toList
  utility : IsBalanced token.utility.toList
  opacity : ∀ opacity ∈ token.opacity, IsBalanced opacity.toList
  colon : ¬StandsOutside ':' token.utility.toList
  slash : ∀ opacity ∈ token.opacity, ¬StandsOutside '/' opacity.toList
  no_slash : token.opacity = none → ¬StandsOutside '/' token.stem

variable {token : Token}

theorem isBalanced_stem_iff (h : ∀ variant ∈ token.variant, depthBehind 0 variant.toList = 0) :
    IsBalanced token.stem ↔
      (∀ variant ∈ token.variant, IsBalanced variant.toList) ∧
        IsBalanced token.utility.toList := by
  rw [stem]
  cases hvariant : token.variant with
  | none => simp
  | some variant =>
    dsimp only
    rw [List.append_assoc, List.singleton_append,
      isBalanced_between_iff (by decide) (h variant hvariant)]
    simp

/-- The brackets of a class that is cut where it is joined match if those of its parts do. -/
theorem IsCut.isBalanced_render_iff (h : token.IsCut) :
    IsBalanced token.render.toList ↔
      IsBalanced token.stem ∧ ∀ opacity ∈ token.opacity, IsBalanced opacity.toList := by
  rw [toList_render]
  cases hopacity : token.opacity with
  | none => simp
  | some opacity =>
    dsimp only
    rw [isBalanced_between_iff (by decide) (h.opacity opacity hopacity).1]
    simp

theorem IsParted.isBalanced_stem (h : token.IsParted) : IsBalanced token.stem := by
  have hdepth : ∀ variant ∈ token.variant, depthBehind 0 variant.toList = 0 :=
    fun variant hvariant => (h.variant variant hvariant).depthBehind_eq
  exact (isBalanced_stem_iff hdepth).mpr ⟨h.variant, h.utility⟩

/-- **A parted class is cut where it is joined.** -/
theorem IsParted.isCut (h : token.IsParted) : token.IsCut where
  variant := fun variant hvariant => (h.variant variant hvariant).depthBehind_eq
  utility := h.utility.cutLast?_eq_none_iff.mpr h.colon
  opacity := fun opacity hopacity => ⟨h.isBalanced_stem.depthBehind_eq,
    (h.opacity opacity hopacity).cutLast?_eq_none_iff.mpr (h.slash opacity hopacity)⟩
  stem := fun hopacity => h.isBalanced_stem.cutLast?_eq_none_iff.mpr (h.no_slash hopacity)

/-- **And one that is cut where it is joined is parted** if its brackets match. -/
theorem isParted_iff : token.IsParted ↔ token.IsCut ∧ IsBalanced token.render.toList := by
  constructor
  · intro h
    exact ⟨h.isCut, h.isCut.isBalanced_render_iff.mpr ⟨h.isBalanced_stem, h.opacity⟩⟩
  · rintro ⟨hcut, hrender⟩
    obtain ⟨hstem, hopacity⟩ := hcut.isBalanced_render_iff.mp hrender
    obtain ⟨hvariant, hutility⟩ := (isBalanced_stem_iff hcut.variant).mp hstem
    exact
      { variant := hvariant
        utility := hutility
        opacity := hopacity
        colon := hutility.cutLast?_eq_none_iff.mp hcut.utility
        slash := fun opacity hmem =>
          (hopacity opacity hmem).cutLast?_eq_none_iff.mp (hcut.opacity opacity hmem).2
        no_slash := fun hnone => hstem.cutLast?_eq_none_iff.mp (hcut.stem hnone) }

/-- **Reading loses nothing and cuts outside of the brackets only.** The parts of a text make it up
again, whether or not its brackets match. They match exactly if the text is read as a parted
class, and there is no other way to part it. -/
theorem isParted_ofString_iff (text : String) :
    (ofString text).render = text ∧
      (IsBalanced text.toList ↔ (ofString text).IsParted) ∧
      ∀ token : Token, token.IsParted → token.render = text → ofString text = token := by
  refine ⟨render_read text, ?_, ?_⟩
  · rw [isParted_iff, render_read, and_iff_right (isCut_ofString text)]
  · rintro token hparted rfl
    exact hparted.isCut.ofString_render

/-- Colons and slashes in brackets of both kinds, one in the other, and behind them. -/
theorem isParted_ofString_iff_nested :
    let text := "[&_a:not(b/c)]:hover:bg-[url(a/b):c]/[1/(2)]"
    let token : Token := ⟨some "[&_a:not(b/c)]:hover", "bg-[url(a/b):c]", some "[1/(2)]"⟩
    IsBalanced text.toList ∧ token.render = text ∧ token.IsParted ∧ ofString text = token := by
  intro text token
  obtain ⟨-, hbalanced, hunique⟩ := isParted_ofString_iff text
  have htext : IsBalanced text.toList := by decide
  have hrender : token.render = text := by decide
  have hread : ofString text = token := by decide
  have hparted : token.IsParted := hread ▸ hbalanced.mp htext
  exact ⟨htext, hrender, hparted, hunique token hparted hrender⟩

/-- A bracket too many and one in the place of another do not keep the parts from making up the
text. -/
example : let text := "a]b:[c:d)/e(f/g"
    (ofString text).render = text ∧ (ofString text).utility = "[c:d)" ∧
      (ofString text).opacity = some "e(f/g" := by
  decide

end Token

end Restyle.Class
