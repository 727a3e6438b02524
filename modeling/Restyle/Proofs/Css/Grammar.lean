import Mathlib.Data.List.Basic
import Restyle.Proofs.Css.Spelling

/-!
# The grammar of style sheets

What a style sheet is can be said of its tokens, without a reader. A style sheet is a sequence
of **items** (`Restyle.Css.AreItems`): white space, semicolons, comments and statements. A
statement is a **run** of component values (`Restyle.Css.IsRun`) with what ends it: a body in
braces, a semicolon, or the end of the container. A component value is one token, or a pair of
brackets with whatever is **enclosed** by it (`Restyle.Css.IsEnclosed`).

Brackets may also be left open, but only by the end of the text. That is why each of the three
notions comes with a Boolean, `last`: whether the tokens reach to the end of the text.

The reader follows brackets by a list of the marks that close them. This file ties the two
together: a run is what the reader takes for one (`Restyle.Css.IsRun.advance`,
`Restyle.Css.exists_isRun`), and it has a keyword or a colon exactly if the reader finds one
(`Restyle.Css.IsRun.isMeaningful_iff`).
-/

namespace Restyle.Css

open Reader (advance beginsStatement closerOf? statementOf)

/-! ### Items -/

/-- **What is enclosed by brackets** whose closing mark is `closer`: that mark is not among it,
and the brackets among it are closed, but for those that the end of the text leaves open. -/
inductive IsEnclosed : (last : Bool) → (closer : Kind) → List Token → Prop
  | nil {last closer} : IsEnclosed last closer []
  | token {last closer token rest} : token.kind ≠ closer → closerOf? token.kind = none →
      IsEnclosed last closer rest → IsEnclosed last closer (token :: rest)
  | brackets {last closer inner opening closing inside rest} : opening.kind ≠ closer →
      closerOf? opening.kind = some inner → IsEnclosed false inner inside →
      closing.kind = inner → IsEnclosed last closer rest →
      IsEnclosed last closer (opening :: (inside ++ closing :: rest))
  | leftOpen {closer inner opening inside} : opening.kind ≠ closer →
      closerOf? opening.kind = some inner → IsEnclosed true inner inside →
      IsEnclosed true closer (opening :: inside)

/-- The marks that end a run of component values. -/
def endsRun : Kind → Bool
  | .semicolon | .openCurly | .closeCurly => true
  | _ => false

/-- **A run of component values**, with white space and comments among them. Those of its
tokens that are outside brackets are `outer`. -/
inductive IsRun : (last : Bool) → (outer : List Token) → List Token → Prop
  | nil {last} : IsRun last [] []
  | token {last outer token rest} : ¬endsRun token.kind → closerOf? token.kind = none →
      IsRun last outer rest → IsRun last (token :: outer) (token :: rest)
  | brackets {last closer outer opening closing inside rest} : ¬endsRun opening.kind →
      closerOf? opening.kind = some closer → IsEnclosed false closer inside →
      closing.kind = closer → IsRun last outer rest →
      IsRun last (opening :: outer) (opening :: (inside ++ closing :: rest))
  | leftOpen {closer opening inside} : ¬endsRun opening.kind →
      closerOf? opening.kind = some closer → IsEnclosed true closer inside →
      IsRun true [opening] (opening :: inside)

/-- White space and comments in front of a statement are items of their own. -/
def StartsWithValue (run : List Token) : Prop :=
  ∀ token ∈ run.head?, beginsStatement token.kind

/-- **What makes a run a statement** where no body follows: an at-keyword in front, or a colon
outside brackets. -/
def IsMeaningful (outer : List Token) : Prop :=
  (∃ token ∈ outer.head?, token.kind = .atKeyword) ∨ ∃ token ∈ outer, token.kind = .colon

/-- **The items of a container.** The last statement may do without a semicolon. -/
inductive AreItems : (last : Bool) → List Token → Prop
  | nil {last} : AreItems last []
  | filler {last token rest} :
      token.kind = .space ∨ token.kind = .semicolon ∨ token.kind = .comment →
      AreItems last rest → AreItems last (token :: rest)
  | block {last outer run opening body closing rest} : IsRun false outer run →
      StartsWithValue run → opening.kind = .openCurly → AreItems false body →
      closing.kind = .closeCurly → AreItems last rest →
      AreItems last (run ++ opening :: (body ++ closing :: rest))
  | terminated {last outer run mark rest} : IsRun false outer run → StartsWithValue run →
      IsMeaningful outer → mark.kind = .semicolon → AreItems last rest →
      AreItems last (run ++ mark :: rest)
  | unterminated {last outer run} : IsRun last outer run → StartsWithValue run →
      IsMeaningful outer → AreItems last run

/-! ### Single tokens -/

section Token

variable {closer inner : Kind} {around : List Kind} {token : Token}

theorem not_endsRun_iff : ¬endsRun token.kind ↔
    ¬(token.kind = .semicolon ∨ token.kind = .openCurly ∨ token.kind = .closeCurly) := by
  cases hkind : token.kind <;> simp [endsRun]

/-- A token of a run leaves no bracket open, or its own. -/
theorem advance_of_not_endsRun (h : ¬endsRun token.kind) :
    advance [] token = some (closerOf? token.kind).toList := by
  rw [advance, if_neg (not_endsRun_iff.mp h)]

theorem advance_enclosed (hne : token.kind ≠ closer) (hopens : closerOf? token.kind = none) :
    advance (closer :: around) token = some (closer :: around) := by
  simp [advance, hne, hopens]

theorem advance_opening (hne : token.kind ≠ closer) (hopens : closerOf? token.kind = some inner) :
    advance (closer :: around) token = some (inner :: closer :: around) := by
  simp [advance, hne, hopens]

theorem advance_closing (h : token.kind = closer) :
    advance (closer :: around) token = some around := by
  simp [advance, h]

end Token

/-! ### Brackets -/

variable {last : Bool} {closer : Kind} {around brackets : List Kind}
  {toks run outer inside : List Token} {opening closing : Token}

/-- A pair of brackets is stepped over whole. -/
theorem foldlM_advance_pair (hopens : advance around opening = some (closer :: around))
    (hinside : inside.foldlM advance (closer :: around) = some (closer :: around))
    (hcloses : closing.kind = closer) (rest : List Token) :
    (opening :: (inside ++ closing :: rest)).foldlM advance around =
      rest.foldlM advance around := by
  rw [List.foldlM_cons, hopens, Option.bind_eq_bind, Option.bind_some, List.foldlM_append,
    hinside, Option.bind_eq_bind, Option.bind_some, List.foldlM_cons, advance_closing hcloses]
  rfl

/-- What is enclosed by brackets leaves them open, and opens others at the end of the text
only. -/
theorem IsEnclosed.advance (h : IsEnclosed last closer toks) (around : List Kind) :
    ∃ brackets, toks.foldlM advance (closer :: around) = some brackets ∧
      (last = false → brackets = closer :: around) := by
  induction h generalizing around with
  | nil => exact ⟨_, rfl, fun _ => rfl⟩
  | token hne hopens _ ih =>
    obtain ⟨brackets, hrest, hbrackets⟩ := ih around
    refine ⟨brackets, ?_, hbrackets⟩
    rw [List.foldlM_cons, advance_enclosed hne hopens]
    exact hrest
  | @brackets last closer inner _ _ _ _ hne hopens _ hcloses _ ihinside ihrest =>
    obtain ⟨brackets, hrest, hbrackets⟩ := ihrest around
    obtain ⟨_, hinside, hwhole⟩ := ihinside (closer :: around)
    obtain rfl := hwhole rfl
    refine ⟨brackets, ?_, hbrackets⟩
    rw [foldlM_advance_pair (advance_opening hne hopens) hinside hcloses]
    exact hrest
  | @leftOpen closer _ _ _ hne hopens _ ih =>
    obtain ⟨brackets, hinside, -⟩ := ih (closer :: around)
    refine ⟨brackets, ?_, by simp⟩
    rw [List.foldlM_cons, advance_opening hne hopens]
    exact hinside

theorem IsEnclosed.advance_eq (h : IsEnclosed false closer toks) (around : List Kind) :
    toks.foldlM Reader.advance (closer :: around) = some (closer :: around) := by
  obtain ⟨_, hadvance, hwhole⟩ := h.advance around
  obtain rfl := hwhole rfl
  exact hadvance

/-- Behind an opening bracket, all tokens are enclosed by it, or those in front of its closing
mark are. -/
theorem exists_isEnclosed (closer : Kind) (toks : List Token) :
    IsEnclosed true closer toks ∨ ∃ inside closing rest, toks = inside ++ closing :: rest ∧
      IsEnclosed false closer inside ∧ closing.kind = closer := by
  induction hlength : toks.length using Nat.strong_induction_on generalizing closer toks with
  | _ n ih =>
    subst hlength
    cases toks with
    | nil => exact .inl .nil
    | cons token rest =>
      by_cases hcloses : token.kind = closer
      · exact .inr ⟨[], token, rest, rfl, .nil, hcloses⟩
      rcases hopens : closerOf? token.kind with _ | inner
      · rcases ih rest.length (by simp) closer rest rfl with
          hrest | ⟨inside, closing, rest, rfl, hinside, hclosing⟩
        · exact .inl (.token hcloses hopens hrest)
        · exact .inr ⟨token :: inside, closing, rest, rfl, .token hcloses hopens hinside, hclosing⟩
      · -- The inner brackets are closed first, and what is behind them is shorter still.
        rcases ih rest.length (by simp) inner rest rfl with
          hinner | ⟨inside, closing, rest, rfl, hinside, hclosing⟩
        · exact .inl (.leftOpen hcloses hopens hinner)
        rcases ih rest.length (by simp; omega) closer rest rfl with
          hrest | ⟨more, final, rest, rfl, hmore, hfinal⟩
        · exact .inl (.brackets hcloses hopens hinside hclosing hrest)
        · exact .inr ⟨token :: (inside ++ closing :: more), final, rest, by simp,
            .brackets hcloses hopens hinside hclosing hmore, hfinal⟩

/-! ### Runs -/

/-- **The reader takes a run for one**: none of its tokens ends it. -/
theorem IsRun.advance (h : IsRun last outer run) :
    ∃ brackets, run.foldlM advance [] = some brackets ∧ (last = false → brackets = []) := by
  induction h with
  | nil => exact ⟨[], rfl, fun _ => rfl⟩
  | token hends hopens _ ih =>
    obtain ⟨brackets, hrest, hbrackets⟩ := ih
    refine ⟨brackets, ?_, hbrackets⟩
    rw [List.foldlM_cons, advance_of_not_endsRun hends, hopens]
    exact hrest
  | brackets hends hopens hinside hcloses _ ih =>
    obtain ⟨brackets, hrest, hbrackets⟩ := ih
    refine ⟨brackets, ?_, hbrackets⟩
    have hopening := advance_of_not_endsRun hends
    rw [hopens] at hopening
    rw [foldlM_advance_pair hopening (hinside.advance_eq []) hcloses]
    exact hrest
  | leftOpen hends hopens hinside =>
    obtain ⟨brackets, hinside, -⟩ := hinside.advance []
    refine ⟨brackets, ?_, by simp⟩
    rw [List.foldlM_cons, advance_of_not_endsRun hends, hopens]
    exact hinside

/-- Any tokens start with a run, up to a mark that ends it or to the end. -/
theorem exists_isRun (toks : List Token) :
    (∃ outer, IsRun true outer toks) ∨ ∃ outer run mark rest, toks = run ++ mark :: rest ∧
      IsRun false outer run ∧ endsRun mark.kind := by
  induction hlength : toks.length using Nat.strong_induction_on generalizing toks with
  | _ n ih =>
    subst hlength
    cases toks with
    | nil => exact .inl ⟨[], .nil⟩
    | cons token rest =>
      by_cases hends : endsRun token.kind
      · exact .inr ⟨[], [], token, rest, rfl, .nil, hends⟩
      rcases hopens : closerOf? token.kind with _ | closer
      · rcases ih rest.length (by simp) rest rfl with
          ⟨outer, hrest⟩ | ⟨outer, run, mark, rest, rfl, hrun, hmark⟩
        · exact .inl ⟨_, .token hends hopens hrest⟩
        · exact .inr ⟨_, token :: run, mark, rest, rfl, .token hends hopens hrun, hmark⟩
      · rcases exists_isEnclosed closer rest with
          hinside | ⟨inside, closing, rest, rfl, hinside, hcloses⟩
        · exact .inl ⟨_, .leftOpen hends hopens hinside⟩
        rcases ih rest.length (by simp; omega) rest rfl with
          ⟨outer, hrest⟩ | ⟨outer, run, mark, rest, rfl, hrun, hmark⟩
        · exact .inl ⟨_, .brackets hends hopens hinside hcloses hrest⟩
        · exact .inr ⟨_, token :: (inside ++ closing :: run), mark, rest, by simp,
            .brackets hends hopens hinside hcloses hrun, hmark⟩

/-- The first token of a run is outside brackets. -/
theorem IsRun.head? (h : IsRun last outer run) : outer.head? = run.head? := by
  cases h <;> rfl

/-! ### What the reader finds in a run -/

section Statement

open Reader (Statement)

variable {statement : Statement}

/-- The brackets that are open behind tokens. -/
theorem brackets_foldl (h : toks.foldlM advance statement.brackets = some brackets) :
    (toks.foldl Statement.next statement).brackets = brackets := by
  induction toks generalizing statement with
  | nil => exact Option.some.inj h
  | cons token rest ih =>
    rw [List.foldlM_cons] at h
    obtain ⟨middle, hmiddle, hrest⟩ := Option.bind_eq_some_iff.mp h
    rw [← Reader.brackets_next hmiddle] at hrest
    exact ih hrest

/-- A token inside brackets is no colon of the statement. -/
theorem colon_next (h : statement.brackets = closer :: around) (token : Token) :
    (statement.next token).colon = statement.colon := by
  rw [Statement.next]
  simp [h, Statement.addInside]

/-- Nor is what is between brackets, and behind them the same are open as in front. -/
theorem next_pair (hopens : advance statement.brackets opening = some (closer :: around))
    (hinside : inside.foldlM advance (closer :: around) = some (closer :: around))
    (hcolon : ∀ other : Statement, other.brackets = closer :: around →
      (inside.foldl Statement.next other).colon = other.colon)
    (hcloses : closing.kind = closer) :
    ((inside.foldl Statement.next (statement.next opening)).next closing).brackets = around ∧
      ((inside.foldl Statement.next (statement.next opening)).next closing).colon =
        (statement.next opening).colon := by
  have hopen : (statement.next opening).brackets = closer :: around := Reader.brackets_next hopens
  rw [← hopen] at hinside
  have hbehind := brackets_foldl hinside
  rw [hopen] at hbehind
  constructor
  · exact Reader.brackets_next (by rw [hbehind, advance_closing hcloses])
  · rw [colon_next hbehind, hcolon _ hopen]

theorem IsEnclosed.colon_foldl (h : IsEnclosed last closer toks)
    (hopen : statement.brackets = closer :: around) :
    (toks.foldl Statement.next statement).colon = statement.colon := by
  induction h generalizing statement around with
  | nil => rfl
  | token hne hopens _ ih =>
    have hnext := Reader.brackets_next (hopen ▸ advance_enclosed hne hopens)
    rw [List.foldl_cons, ih (hnext.trans hopen), colon_next hopen]
  | brackets hne hopens hinside hcloses _ ihinside ihrest =>
    obtain ⟨hbehind, hcolon⟩ := next_pair (hopen ▸ advance_opening hne hopens)
      (hinside.advance_eq _) (fun _ hother => ihinside hother) hcloses
    rw [List.foldl_cons, List.foldl_append, List.foldl_cons, ihrest (hbehind.trans hopen), hcolon,
      colon_next hopen]
  | leftOpen hne hopens _ ih =>
    have hnext := Reader.brackets_next (hopen ▸ advance_opening hne hopens)
    rw [List.foldl_cons, ih hnext, colon_next hopen]

/-- A token outside brackets is the colon of the statement if it is the first one. -/
theorem isSome_colon_next (hclosed : statement.brackets = []) (token : Token) :
    (statement.next token).colon.isSome ↔ statement.colon.isSome ∨ token.kind = .colon := by
  rw [Statement.next]
  simp only [hclosed]
  split_ifs with hspace
  · simp [hspace]
  · by_cases hcolon : token.kind = .colon <;> cases hsome : statement.colon <;>
      simp [Statement.add, hcolon, hsome]

/-- **The reader finds a colon in a run exactly if there is one outside brackets.** -/
theorem IsRun.isSome_colon_foldl (h : IsRun last outer run) (hclosed : statement.brackets = []) :
    (run.foldl Statement.next statement).colon.isSome ↔
      statement.colon.isSome ∨ ∃ token ∈ outer, token.kind = .colon := by
  induction h generalizing statement with
  | nil => simp
  | token hends hopens _ ih =>
    have hnext := Reader.brackets_next (hclosed ▸ advance_of_not_endsRun hends)
    rw [hopens] at hnext
    rw [List.foldl_cons, ih hnext, isSome_colon_next hclosed, List.exists_mem_cons_iff, or_assoc]
  | brackets hends hopens hinside hcloses _ ih =>
    have hopening := advance_of_not_endsRun hends
    rw [hopens, ← hclosed] at hopening
    obtain ⟨hbehind, hcolon⟩ := next_pair hopening (hclosed ▸ hinside.advance_eq _)
      (fun _ hother => hinside.colon_foldl hother) hcloses
    rw [List.foldl_cons, List.foldl_append, List.foldl_cons, ih hbehind, hcolon,
      isSome_colon_next hclosed, List.exists_mem_cons_iff, or_assoc]
  | leftOpen hends hopens hinside =>
    have hnext := Reader.brackets_next (hclosed ▸ advance_of_not_endsRun hends)
    rw [hopens] at hnext
    rw [List.foldl_cons, hinside.colon_foldl hnext, isSome_colon_next hclosed]
    simp

/-- **The reader finds a keyword or a colon in a run exactly if it is a statement.** -/
theorem IsRun.isMeaningful_iff (h : IsRun last outer run) (hstarts : StartsWithValue run)
    (htext : ∀ token ∈ run, token.text ≠ []) (start : Nat) :
    (statementOf start run).keyword.isSome ∨ (statementOf start run).colon.isSome ↔
      IsMeaningful outer := by
  refine or_congr ?_ ?_
  · rw [h.head?]
    cases run with
    | nil => simp [statementOf]
    | cons token rest =>
      rw [Reader.keyword_statementOf (htext token List.mem_cons_self) (hstarts token rfl)]
      split_ifs with hkind <;> simp [hkind]
  · rw [statementOf, h.isSome_colon_foldl rfl]
    simp

end Statement

end Restyle.Css
