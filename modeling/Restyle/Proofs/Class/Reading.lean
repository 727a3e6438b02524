import Restyle.Proofs.Class.Token
import Restyle.Proofs.Text.Words

/-!
# What is read from a class

Every text is read as a class, whether or not its brackets match. The three parts that are read
make up the text again (`Restyle.Class.Token.render_read`), and they are **cut** where they are
joined (`Restyle.Class.Token.IsCut`): a class whose parts are like that is read as it is written
(`Restyle.Class.Token.IsCut.ofString_render`).

What transformations write into a class is **plain** (`Restyle.Class.IsPlain`): it has neither
brackets nor marks, so it moves no cut. Hence a class stays cut when a plain beginning of its
utility is replaced by another one (`Restyle.Class.Token.IsCut.withUtility`), or when a plain
variant is put outside its variants (`Restyle.Class.Token.IsCut.withOuterVariant`), and what a
transformation wrote is read by the next one with the parts that it wrote.
-/

namespace Restyle.Class

/-! ### Plain texts -/

/-- A text is **plain** if it has neither brackets nor marks. -/
def IsPlain (cs : List Char) : Prop :=
  ∀ c ∈ cs, bracketWeight c = 0 ∧ c ≠ ':' ∧ c ≠ '/'

instance (cs : List Char) : Decidable (IsPlain cs) :=
  List.decidableBAll _ _

section Cuts

variable {mark : Char} {depth : Nat} {cs xs ys before after : List Char}

theorem cutLast?_append_eq_none_iff :
    cutLast? mark depth (xs ++ ys) = none ↔
      cutLast? mark depth xs = none ∧ cutLast? mark (depthBehind depth xs) ys = none := by
  rw [cutLast?_append, Option.or_eq_none_iff, Option.map_eq_none_iff, Option.map_eq_none_iff,
    and_comm]

/-- **A cut is where it is**: the mark stands there outside the brackets, and nowhere behind. -/
theorem of_cutLast?_eq_some (hmark : bracketWeight mark = 0)
    (h : cutLast? mark depth cs = some (before, after)) :
    cs = before ++ mark :: after ∧ depthBehind depth before = 0 ∧
      cutLast? mark 0 after = none := by
  induction cs generalizing depth before with
  | nil => cases h
  | cons c cs ih =>
    rw [cutLast?] at h
    cases hcs : cutLast? mark (nextDepth depth c) cs with
    | some cut =>
      simp only [hcs, Option.some.injEq, Prod.mk.injEq] at h
      obtain ⟨rfl, rfl⟩ := h
      obtain ⟨heq, hdepth, hnone⟩ := ih hcs
      exact ⟨by rw [heq, List.cons_append], hdepth, hnone⟩
    | none =>
      simp only [hcs] at h
      split_ifs at h with hfirst
      obtain ⟨rfl, rfl⟩ := hfirst
      obtain ⟨rfl, rfl⟩ := Prod.mk.inj (Option.some.inj h)
      rw [nextDepth_eq_self hmark] at hcs
      exact ⟨rfl, rfl, hcs⟩

theorem IsPlain.depthBehind_eq (h : IsPlain cs) : depthBehind depth cs = depth := by
  induction cs with
  | nil => rfl
  | cons c cs ih =>
    obtain ⟨hc, hcs⟩ := List.forall_mem_cons.mp h
    rw [depthBehind, List.foldl_cons, nextDepth_eq_self hc.1]
    exact ih hcs

theorem IsPlain.cutLast?_eq_none (h : IsPlain cs) (hmark : mark = ':' ∨ mark = '/') :
    cutLast? mark depth cs = none := by
  rw [cutLast?_eq_none_iff]
  rintro front back rfl -
  obtain ⟨-, hcolon, hslash⟩ := h mark (by simp)
  exact hmark.elim hcolon hslash

end Cuts

namespace Token

/-! ### What is read -/

/-- What is read of a class when its opacity has been cut off. -/
def ofStem (cs : List Char) (opacity : Option String) : Token :=
  match cutLast? ':' 0 cs with
  | some (before, after) => ⟨some (String.ofList before), String.ofList after, opacity⟩
  | none => ⟨none, String.ofList cs, opacity⟩

theorem ofString_eq (text : String) :
    ofString text = match cutLast? '/' 0 text.toList with
      | some (before, after) => ofStem before (some (String.ofList after))
      | none => ofStem text.toList none := by
  rw [ofString]
  cases cutLast? '/' 0 text.toList <;> rfl

@[simp] theorem opacity_ofStem (cs : List Char) (opacity : Option String) :
    (ofStem cs opacity).opacity = opacity := by
  rw [ofStem]
  split <;> rfl

theorem ofStem_spec (cs : List Char) (opacity : Option String) :
    (ofStem cs opacity).stem = cs ∧
      (∀ variant ∈ (ofStem cs opacity).variant, depthBehind 0 variant.toList = 0) ∧
      cutLast? ':' 0 (ofStem cs opacity).utility.toList = none := by
  rw [ofStem]
  cases hcolon : cutLast? ':' 0 cs with
  | some cut =>
    obtain ⟨hcs, hvariant, hutility⟩ := of_cutLast?_eq_some (by decide) hcolon
    simpa [Token.stem] using ⟨hcs.symm, hvariant, hutility⟩
  | none => simpa [Token.stem] using hcolon

/-- **The parts that are read make up the text**, and it is cut where they are joined. -/
theorem read_spec (text : String) :
    (ofString text).render = text ∧ (ofString text).IsCut := by
  rw [← String.toList_inj, toList_render, ofString_eq]
  cases hslash : cutLast? '/' 0 text.toList with
  | some cut =>
    obtain ⟨htext, hdepth, hopacity⟩ := of_cutLast?_eq_some (by decide) hslash
    obtain ⟨hstem, hvariant, hutility⟩ := ofStem_spec cut.1 (some (String.ofList cut.2))
    refine ⟨by simp [hstem, htext], hvariant, hutility, ?_, by simp⟩
    simpa [hstem] using ⟨hdepth, hopacity⟩
  | none =>
    obtain ⟨hstem, hvariant, hutility⟩ := ofStem_spec text.toList none
    exact ⟨by simp [hstem], hvariant, hutility, by simp, fun _ => by rw [hstem, hslash]⟩

@[simp] theorem render_read (text : String) : (ofString text).render = text :=
  (read_spec text).1

theorem isCut_ofString (text : String) : (ofString text).IsCut :=
  (read_spec text).2

/-! ### What transformations write -/

section Writing

variable {token : Token} {front front' rest : List Char} {utility variant : String}

/-- The variants of a class, with the colon behind them. -/
def chain (token : Token) : List Char :=
  match token.variant with
  | some variant => variant.toList ++ [':']
  | none => []

theorem stem_eq (token : Token) : token.stem = token.chain ++ token.utility.toList := rfl

theorem stem_withUtility (token : Token) (utility : String) :
    (token.withUtility utility).stem = token.chain ++ utility.toList := rfl

theorem stem_withOuterVariant (token : Token) (variant : String) :
    (token.withOuterVariant variant).stem = variant.toList ++ ':' :: token.stem := by
  cases hvariant : token.variant <;> simp [withOuterVariant, stem, hvariant]

theorem render_withOuterVariant (token : Token) (variant : String) :
    (token.withOuterVariant variant).render = variant ++ ":" ++ token.render := by
  apply String.toList_injective
  cases hvariant : token.variant <;> simp [withOuterVariant, render, hvariant]

/-- **Another plain beginning of the utility moves no cut.** -/
theorem IsCut.withUtility (h : token.IsCut) (hfront : IsPlain front)
    (htoken : token.utility.toList = front ++ rest) (hfront' : IsPlain front')
    (hutility : utility.toList = front' ++ rest) : (token.withUtility utility).IsCut := by
  have hstem : token.stem = token.chain ++ (front ++ rest) := by rw [stem_eq, htoken]
  have hstem' : (token.withUtility utility).stem = token.chain ++ (front' ++ rest) := by
    rw [stem_withUtility, hutility]
  have hnone (mark : Char) (hmark : mark = ':' ∨ mark = '/') (depth : Nat) :
      cutLast? mark depth (front' ++ rest) = none ↔ cutLast? mark depth (front ++ rest) = none := by
    simp only [cutLast?_append_eq_none_iff, hfront.cutLast?_eq_none hmark,
      hfront'.cutLast?_eq_none hmark, hfront.depthBehind_eq, hfront'.depthBehind_eq]
  refine ⟨h.variant, ?_, ?_, ?_⟩
  · change cutLast? ':' 0 utility.toList = none
    rw [hutility, hnone ':' (.inl rfl), ← htoken]
    exact h.utility
  · intro opacity hopacity
    obtain ⟨hdepth, hcut⟩ := h.opacity opacity hopacity
    rw [hstem] at hdepth
    rw [hstem']
    simp only [depthBehind_append, hfront.depthBehind_eq, hfront'.depthBehind_eq] at hdepth ⊢
    exact ⟨hdepth, hcut⟩
  · intro hopacity
    have hcut := h.stem hopacity
    rw [hstem, cutLast?_append_eq_none_iff] at hcut
    rw [hstem', cutLast?_append_eq_none_iff, hnone '/' (.inr rfl)]
    exact hcut

/-- **A plain variant outside all others moves no cut.** -/
theorem IsCut.withOuterVariant (h : token.IsCut) (hvariant : IsPlain variant.toList) :
    (token.withOuterVariant variant).IsCut := by
  have hcolon : depthBehind 0 (variant.toList ++ [':']) = 0 := by
    rw [depthBehind_append, hvariant.depthBehind_eq]
    rfl
  have hstem : (token.withOuterVariant variant).stem =
      (variant.toList ++ [':']) ++ token.stem := by
    rw [stem_withOuterVariant, List.append_assoc, List.singleton_append]
  refine ⟨?_, h.utility, ?_, ?_⟩
  · intro outer houter
    obtain rfl := Option.some.inj houter
    cases hinner : token.variant with
    | none => exact hvariant.depthBehind_eq
    | some inner =>
      simp only [String.toList_append, depthBehind_append, hvariant.depthBehind_eq]
      exact h.variant inner hinner
  · intro opacity hopacity
    rw [hstem, depthBehind_append, hcolon]
    exact h.opacity opacity hopacity
  · intro hopacity
    rw [hstem, cutLast?_append_eq_none_iff, hcolon, cutLast?_append_eq_none_iff]
    exact ⟨⟨hvariant.cutLast?_eq_none (.inr rfl), rfl⟩, h.stem hopacity⟩

/-! ### Words -/

theorem utility_infix_render (token : Token) : token.utility.toList <:+: token.render.toList := by
  rw [toList_render, stem_eq]
  exact ⟨_, _, rfl⟩

theorem mem_render_withUtility {c : Char} (h : c ∈ (token.withUtility utility).render.toList) :
    c ∈ utility.toList ∨ c ∈ token.render.toList := by
  rw [toList_render, stem_withUtility, List.mem_append, List.mem_append] at h
  rw [toList_render, stem_eq, List.mem_append, List.mem_append]
  rcases h with (hchain | hutility) | hopacity
  · exact .inr (.inl (.inl hchain))
  · exact .inl hutility
  · exact .inr (.inr hopacity)

/-- A word with another utility is a word. -/
theorem isWord_withUtility (h : Text.IsWord token.render) (hutility : Text.IsWord utility) :
    Text.IsWord (token.withUtility utility).render := by
  constructor
  · intro hempty
    have hinfix := utility_infix_render (token.withUtility utility)
    rw [hempty] at hinfix
    exact hutility.1 (by simpa [withUtility] using hinfix)
  · intro c hc
    exact (mem_render_withUtility hc).elim (hutility.2 c) (h.2 c)

theorem isWord_withBeginning {front front' rest : String} (h : Text.IsWord token.render)
    (htoken : token.utility = front ++ rest) (hfront' : Text.IsWord front') :
    Text.IsWord (token.withUtility (front' ++ rest)).render := by
  have hrest : rest.toList ⊆ token.render.toList := by
    refine List.Subset.trans ?_ (utility_infix_render token).subset
    rw [htoken, String.toList_append]
    exact List.subset_append_right _ _
  exact isWord_withUtility h (hfront'.append fun c hc => h.2 c (hrest hc))

theorem isWord_withOuterVariant (h : Text.IsWord token.render) (hvariant : Text.IsWord variant) :
    Text.IsWord (token.withOuterVariant variant).render := by
  have hmark : Text.IsWord ":" := by decide
  have hcolon : Text.IsWord (variant ++ ":") := hvariant.append hmark.2
  rw [render_withOuterVariant]
  exact hcolon.append h.2

/-- **A piece without marks** stands in one of the parts of a class. -/
theorem infix_render_iff {piece : List Char} (hcolon : ':' ∉ piece) (hslash : '/' ∉ piece) :
    piece <:+: token.render.toList ↔
      (∃ variant ∈ token.variant, piece <:+: variant.toList) ∨ piece <:+: token.utility.toList ∨
        ∃ opacity ∈ token.opacity, piece <:+: opacity.toList := by
  have hstem : piece <:+: token.stem ↔
      (∃ variant ∈ token.variant, piece <:+: variant.toList) ∨
        piece <:+: token.utility.toList := by
    cases hvariant : token.variant with
    | none => simp [stem, hvariant]
    | some variant =>
      simp [stem, hvariant, Text.infix_append_cons_iff hcolon]
  rw [toList_render, ← or_assoc, ← hstem]
  cases token.opacity with
  | none => simp
  | some opacity => simp [Text.infix_append_cons_iff hslash]

theorem length_render_withUtility (token : Token) (utility : String) :
    (token.withUtility utility).render.length + token.utility.length =
      token.render.length + utility.length := by
  simp only [render, withUtility, String.length_append]
  omega

end Writing

end Token

end Restyle.Class
