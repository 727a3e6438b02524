import Mathlib.Data.List.Basic
import Mathlib.Data.List.ModifyLast
import Restyle.Proofs.Css.Rereading

/-!
# What is read is legible

A tree that was read is legible wherever its texts are neat: each of them was read as what it
is, in front of what follows it still when it is printed. The reader keeps track of this
itself. `Restyle.Css.Reader.Pending` says by which tokens the statement that has begun is
spelled, and `Restyle.Css.Reader.State.IsReadable` that everything behind it is legible.
-/

namespace Restyle.Css

open Restyle.Text (isBlank trimStart trimEnd)

/-! ### Comments -/

/-- A comment is closed where it first can be. -/
theorem contains_take_commentLength {cs : List Char} {n : Nat} (h : commentLength cs = n + 2) :
    ¬['*', '/'] <:+: cs.take n := by
  induction cs generalizing n with
  | nil => simp
  | cons c cs ih =>
    cases n with
    | zero => simp
    | succ n =>
      rw [commentLength_cons] at h
      have hopen : ¬(c = '*' ∧ cs.head? = some '/') := by
        intro hclose
        rw [if_pos hclose] at h
        omega
      rw [if_neg hopen] at h
      rw [List.take_succ_cons, List.infix_cons_iff, not_or]
      refine ⟨fun hclose => ?_, ih (by omega)⟩
      obtain ⟨rfl, more, hmore⟩ := List.cons_prefix_cons.mp hclose
      refine hopen ⟨rfl, ?_⟩
      cases cs with
      | nil => simp at hmore
      | cons e cs =>
        cases n with
        | zero => simp at hmore
        | succ n =>
          rw [List.take_succ_cons] at hmore
          exact congrArg some (List.cons.inj hmore).1.symm

/-- The kind of a token shows that it is white space. -/
theorem kind_of_mem_tokens {cs : List Char} {token : Token} (h : token ∈ tokens cs)
    (hspace : ∀ c ∈ token.text, isSpace c) : token.kind = .space := by
  induction cs using tokens.induct with
  | case1 => simp [tokens] at h
  | case2 c rest kind n hscan ih =>
    rw [tokens_cons, hscan] at h
    rcases List.mem_cons.mp h with rfl | h
    · have hc := hspace c List.mem_cons_self
      have : (scan c rest).1 = .space := by simp [scan, hc]
      rw [← this, hscan]
    · exact ih h

namespace Reader

/-! ### The statement that has begun -/

/-- The statement that has begun is made of tokens that it starts with in the text, in front
of the rest. -/
def Pending (statement : Statement) (rest : List Char) : Prop :=
  ∃ toks, (∃ token more, toks = token :: more ∧ beginsStatement token.kind) ∧
    (∀ token ∈ toks, token.IsClosed) ∧
    toks.foldlM advance [] = some statement.brackets ∧
    statement = statementOf statement.start toks ∧
    tokens (toks.flatMap Token.text ++ rest) = toks ++ tokens rest

/-- White space behind a statement is its gap. -/
theorem gap_foldl_space {toks : List Token} {statement : Statement}
    (hbrackets : statement.brackets = []) (hspace : ∀ token ∈ toks, token.kind = .space) :
    (toks.foldl Statement.next statement).gap =
      statement.gap ++ toks.flatMap Token.text := by
  induction toks generalizing statement with
  | nil => simp
  | cons token toks ih =>
    have hnext : statement.next token = { statement with gap := statement.gap ++ token.text } := by
      simp [Statement.next, hbrackets, hspace token List.mem_cons_self]
    rw [List.foldl_cons, ih (by rw [hnext]; exact hbrackets)
      (fun other hother => hspace other (List.mem_cons_of_mem _ hother)), hnext]
    simp

/-- Tokens of white space are white space. -/
theorem isGap_flatMap_text {toks : List Token} (hspace : ∀ token ∈ toks, token.kind = .space)
    (hfits : ∀ token ∈ toks, token.Fits) : IsGap (toks.flatMap Token.text) := by
  intro c hc
  obtain ⟨token, htoken, hc⟩ := List.mem_flatMap.mp hc
  have hkind := hfits token htoken
  rw [Token.Fits, hspace token htoken] at hkind
  exact hkind.2 c hc

/-- **A statement that is complete**: its text is spelled by some tokens, in front of its gap or
of the mark that ends it. -/
structure Statement.IsSpelled (statement : Statement) (front : List Token) (d : Char) : Prop where
  spelled : IsSpelling front
  text : front.flatMap Token.text = statement.text
  plain : statementOf 0 front = statement.plain
  gap : IsGap statement.gap
  follows : Follows (some (String.ofList statement.gap)) d
  tokens : ∃ r, Css.tokens (statement.text ++ d :: r) = front ++ Css.tokens (d :: r)

theorem Pending.exists_isSpelled {statement : Statement} {c : Char} {rest : List Char}
    (h : Pending statement (c :: rest)) (hbrackets : statement.brackets = []) (hc : isInert c) :
    ∃ front d, statement.IsSpelled front d := by
  obtain ⟨toks, hbegins, hclosed, hbalanced, hof, htokens⟩ := h
  rw [hbrackets] at hbalanced
  obtain ⟨front, back, rfl, hfront, hback, hsplit⟩ :=
    Reader.exists_spelling hbegins hclosed hbalanced
  obtain ⟨htext, hgap, -⟩ := hfront.statementOf_eq statement.start
  have hstatement : statement =
      { statementOf statement.start front with gap := back.flatMap Token.text } :=
    hof.trans (hsplit statement.start)
  have hstext : statement.text = front.flatMap Token.text := by rw [hstatement, ← htext]
  have hsgap : statement.gap = back.flatMap Token.text := by rw [hstatement]
  have hplain : statementOf 0 front = statement.plain := by
    rw [statementOf_start 0 statement.start]
    generalize statement.start = start at hstatement hgap
    rw [hstatement, Statement.plain, ← hgap]
  have hisgap : IsGap statement.gap := by
    rw [hsgap]
    refine isGap_flatMap_text hback fun token htoken => ?_
    refine fits_of_mem_tokens ((front ++ back).flatMap Token.text ++ c :: rest) ?_
    rw [htokens]
    simp [htoken]
  -- what follows the text is the first of its gap, or the mark that ends it
  obtain ⟨d, r, hd⟩ : ∃ d r, statement.gap ++ c :: rest = d :: r :=
    List.exists_cons_of_ne_nil (by simp)
  have hwhole : tokens (front.flatMap Token.text ++ d :: r) =
      front ++ (back ++ tokens (c :: rest)) := by
    rw [← hd, hsgap]
    simpa using htokens
  exact ⟨front, d, hfront, hstext.symm, hplain, hisgap, follows_of_gap hisgap hc hd, r,
    by rw [hstext, hwhole, tokens_of_append hwhole]⟩

/-- Its text is read again if it ends as a text may end there. -/
theorem Statement.IsSpelled.readable {statement : Statement} {front : List Token} {d : Char}
    (h : statement.IsSpelled front d) (hends : EndsClosed statement.text) :
    Readable statement.text d ∧
      statementOf 0 (spelling statement.text) = statement.plain := by
  obtain ⟨r, htokens⟩ := h.tokens
  obtain ⟨hreadable, hspelling⟩ := Readable.of_cuts
    (Cuts.of_tokens h.text h.spelled.closed h.follows.inert (fun _ => hends) htokens) h.spelled
    fun _ => hends
  exact ⟨hreadable, hspelling ▸ h.plain⟩

/-! ### Declarations -/

/-- What is between two parts of a text. -/
theorem drop_take_append (front middle back : List Char) :
    ((front ++ middle ++ back).take ((front ++ middle ++ back).length - back.length)).drop
      front.length = middle := by
  have hlength : (front ++ middle ++ back).length - back.length = (front ++ middle).length := by
    rw [List.length_append]
    omega
  rw [hlength, List.take_left, List.drop_left]

/-- What is between a property and its value: the colon, and blanks. -/
theorem declarationOf_eq (before front back trailing : List Char) :
    ∃ gap gap', front = trimEnd front ++ gap ∧ back = gap' ++ trimStart back ∧
      (∀ c ∈ gap, isBlank c) ∧ (∀ c ∈ gap', isBlank c) ∧
      declarationOf before (front ++ ':' :: back) trailing front.length =
        .declaration (String.ofList (trimEnd front)) (String.ofList (trimStart back))
          { before := some (String.ofList before)
            between := some (String.ofList (gap ++ ':' :: gap'))
            after := some (String.ofList trailing) } := by
  have hfront : front = trimEnd front ++ Text.takeEndWhile isBlank front :=
    (Text.dropEndWhile_append_takeEndWhile isBlank front).symm
  have hback : back = back.takeWhile isBlank ++ trimStart back :=
    List.takeWhile_append_dropWhile.symm
  refine ⟨_, _, hfront, hback, fun c hc => List.mem_takeWhile_imp (List.mem_reverse.mp hc),
    fun c hc => List.mem_takeWhile_imp hc, ?_⟩
  have htake : (front ++ ':' :: back).take front.length = front := List.take_left
  have hdrop : (front ++ ':' :: back).drop (front.length + 1) = back := by
    rw [← List.drop_drop, List.drop_left, List.drop_one, List.tail_cons]
  have htext : front ++ ':' :: back =
      trimEnd front ++ (Text.takeEndWhile isBlank front ++ ':' :: back.takeWhile isBlank) ++
        trimStart back := by
    nth_rewrite 1 [hfront, hback]
    simp
  have hbetween := drop_take_append (trimEnd front)
    (Text.takeEndWhile isBlank front ++ ':' :: back.takeWhile isBlank) (trimStart back)
  rw [← htext] at hbetween
  simp only [declarationOf, htake, hdrop, hbetween]

/-- What is tame around the colon of a declaration is so by itself: the blanks there are
white space, and the property and the value are neat. -/
theorem exists_of_isTame_declarationOf {before front back trailing : List Char}
    (htame : (declarationOf before (front ++ ':' :: back) trailing front.length).isTame) :
    ∃ gap gap', front = trimEnd front ++ gap ∧ back = gap' ++ trimStart back ∧
      IsGap gap ∧ IsGap gap' ∧ IsNeat (trimEnd front) ∧ IsNeat (trimStart back) ∧
      declarationOf before (front ++ ':' :: back) trailing front.length =
        .declaration (String.ofList (trimEnd front)) (String.ofList (trimStart back))
          { before := some (String.ofList before)
            between := some (String.ofList (gap ++ ':' :: gap'))
            after := some (String.ofList trailing) } := by
  obtain ⟨gap, gap', hfront, hback, hgap, hgap', hdeclaration⟩ :=
    declarationOf_eq before front back trailing
  rw [hdeclaration] at htame
  simp only [Node.isTame, Bool.and_eq_true, isNeat_iff, Option.getD_some, String.toList_ofList]
    at htame
  obtain ⟨⟨hproperty, hvalue⟩, hbetween⟩ := htame
  -- no blank is a colon
  obtain ⟨hblanks, hblanks', -⟩ := gaps_of_isTameColon hbetween
    (fun hmem => absurd (hgap _ hmem) (by decide))
    (fun hmem => absurd (hgap' _ hmem) (by decide))
  exact ⟨gap, gap', hfront, hback, hblanks, hblanks', hproperty, hvalue, hdeclaration⟩

/-- A text that is spelled with a colon has the colon where its token is. -/
theorem text_eq_of_colon {text : List Char} {front back : List Token} {token : Token}
    (htext : (front ++ token :: back).flatMap Token.text = text) (hkind : token.kind = .colon)
    (hfits : token.Fits) :
    text = front.flatMap Token.text ++ ':' :: back.flatMap Token.text := by
  rw [Token.Fits, hkind] at hfits
  rw [← htext]
  simp [hfits]

/-- There is something behind a colon but white space, or nothing at all. -/
theorem flatMap_text_eq_nil {front back : List Token} {token : Token}
    (hspelled : IsSpelling (front ++ token :: back)) (hkind : token.kind = .colon)
    (hbalanced : front.foldlM advance [] = some []) (cs : List Char)
    (hback : ∀ other ∈ back, other ∈ tokens cs) (hgap : IsGap (back.flatMap Token.text)) :
    back.flatMap Token.text = [] := by
  have hspace : ∀ other ∈ back, other.kind = .space := fun other hother =>
    kind_of_mem_tokens (hback other hother) fun e he =>
      hgap e (List.mem_flatMap.mpr ⟨other, hother, he⟩)
  have hcolon : advance [] token = some [] := by simp [advance, hkind, closerOf?]
  have hopen : ((statementOf 0 front).next token).brackets = [] := by
    rw [← statementOf_append_singleton]
    exact (statementOf_spec (foldlM_advance_append_singleton.mpr ⟨[], hbalanced, hcolon⟩) 0).1
  have hnogap := hspelled.gap
  rw [statementOf, List.foldl_append, List.foldl_cons, ← statementOf,
    gap_foldl_space hopen hspace, List.append_eq_nil_iff] at hnogap
  exact hnogap.2

/-- The tokens of a value: those behind a colon, and behind the white space there. -/
theorem exists_cuts_value {text gap value : List Char} {d : Char} {front back : List Token}
    {token : Token} (hreadable : Readable text d)
    (hspelling : spelling text = front ++ token :: back)
    (hkind : token.kind = .colon) (hbalanced : front.foldlM advance [] = some [])
    (hback : back.flatMap Token.text = gap ++ value) (hgap : IsGap gap) (hvalue : IsNeat value)
    (hbehind : ∀ r, tokens (':' :: (back.flatMap Token.text ++ d :: r)) =
      token :: (back ++ tokens (d :: r))) :
    ∃ toks, Cuts toks value d ∧ toks.foldlM advance [] = some [] := by
  -- the tokens behind the colon are those of the value, apart from one of white space in front
  have hclosed (other : Token) (hother : other ∈ back) : other.IsClosed :=
    hreadable.spelled.closed other (by rw [hspelling]; simp [hother])
  have hall := hreadable.spelled.balanced
  have hcolon : advance [] token = some [] := by simp [advance, hkind, closerOf?]
  rw [hspelling, List.foldlM_append, hbalanced, Option.bind_eq_bind, Option.bind_some,
    List.foldlM_cons, hcolon, Option.bind_eq_bind, Option.bind_some] at hall
  have hrest (r : List Char) : tokens (gap ++ (value ++ d :: r)) = back ++ tokens (d :: r) := by
    have htokens := hbehind r
    rw [tokens_mark rfl, hback, List.append_assoc] at htokens
    exact (List.cons.inj htokens).2
  have hends : isSpace d → EndsClosed value := fun _ => hvalue.endsClosed
  cases gap with
  | nil => exact ⟨back, .of_tokens hback hclosed hreadable.cuts.inert hends (hrest []), hall⟩
  | cons c gap =>
    by_cases hnil : value = []
    · -- all that is behind the colon is white space, which is no part of a statement
      rw [hnil, List.append_nil] at hback
      have hempty := flatMap_text_eq_nil (hspelling ▸ hreadable.spelled) hkind hbalanced
        (c :: gap ++ (value ++ d :: [])) (fun other hother => ?_) (hback ▸ hgap)
      · simp [hback] at hempty
      · rw [hrest]
        exact List.mem_append_left _ hother
    · obtain ⟨e, more, hcons⟩ := List.exists_cons_of_ne_nil hnil
      have he : ¬isSpace e := fun hspace =>
        hvalue.first e (by rw [hcons]; rfl) (isBlank_of_isSpace hspace)
      have hsplit (r : List Char) : ⟨.space, c :: gap⟩ :: tokens (value ++ d :: r) =
          back ++ tokens (d :: r) := by
        rw [← hrest, List.cons_append, tokens_space (hgap c List.mem_cons_self) gap _
          (fun f hf => hgap f (List.mem_cons_of_mem _ hf)) (by rw [hcons]; rintro f ⟨⟩; exact he)]
      cases back with
      | nil => simp at hback
      | cons other back =>
        obtain ⟨rfl, hvalues⟩ := List.cons.inj (hsplit [])
        refine ⟨back, .of_tokens ?_ (fun other hother => hclosed other (by simp [hother]))
          hreadable.cuts.inert hends hvalues, hall⟩
        simpa using hback

/-- A statement that has no keyword begins with a token that is none. -/
theorem begins_of_keyword_eq_none {toks : List Token} (hspelled : IsSpelling toks)
    (hfits : ∀ token ∈ toks, token.Fits) (hkeyword : (statementOf 0 toks).keyword = none) :
    ∀ token ∈ toks.head?, beginsStatement token.kind ∧ token.kind ≠ .atKeyword := by
  obtain ⟨token, rest, rfl, hbegins⟩ := hspelled.begins
  rintro _ ⟨⟩
  refine ⟨hbegins, fun hword => ?_⟩
  rw [keyword_statementOf (hfits token List.mem_cons_self).ne_nil hbegins, if_pos hword] at hkeyword
  cases hkeyword

/-- **A declaration that is read is legible**, if it is tame. -/
theorem isLegible_declarationOf (before trailing : List Char) {text : List Char} {d : Char}
    {n : Nat}
    (hreadable : Readable text d)
    (hkeyword : (statementOf 0 (spelling text)).keyword = none)
    (hcolon : (statementOf 0 (spelling text)).colon = some n)
    (htame : (declarationOf before text trailing n).isTame) :
    ∃ property value layout, declarationOf before text trailing n =
      .declaration property value layout ∧
      layout.before = some (String.ofList before) ∧ layout.after = some (String.ofList trailing) ∧
      IsPropertyText property (layout.between.getD ": ") ∧ IsValueText value d := by
  obtain ⟨front, token, back, hspelling, hkind, hbalanced, hnone, rfl⟩ :=
    exists_colon hreadable.spelled.balanced hcolon
  have hcuts : Cuts (front ++ token :: back) text d := hspelling ▸ hreadable.cuts
  have hspelled : IsSpelling (front ++ token :: back) := hspelling ▸ hreadable.spelled
  -- the text is cut at the colon, and around it into property, white space and value
  have htext := text_eq_of_colon hcuts.text hkind (hcuts.fits token (by simp))
  rw [htext] at htame
  obtain ⟨gap, gap', hfront, hback, hgap, hgap', hproperty, hvalue, hdeclaration⟩ :=
    exists_of_isTame_declarationOf htame
  have hwhole (r : List Char) :
      tokens (front.flatMap Token.text ++ ':' :: (back.flatMap Token.text ++ d :: r)) =
        front ++ token :: (back ++ tokens (d :: r)) := by
    have htokens := hcuts.tokens r
    rw [htext] at htokens
    simpa using htokens
  have hbehind (r : List Char) : tokens (':' :: (back.flatMap Token.text ++ d :: r)) =
      token :: (back ++ tokens (d :: r)) :=
    tokens_of_append (hwhole r)
  refine ⟨_, _, _, htext ▸ hdeclaration, rfl, rfl, ?_, ?_⟩
  · refine ⟨by simpa using hproperty.toIsTrimmed, front, gap, gap', by simp, hgap, hgap', ?_,
      hbalanced, hnone, fun first hfirst => ?_⟩
    · rw [String.toList_ofList, ← hfront]
      refine Cuts.of_tokens (r := back.flatMap Token.text ++ d :: []) rfl (fun other hother => ?_)
        rfl (fun hspace => absurd hspace (by decide)) (by rw [hbehind, hwhole])
      exact hspelled.closed other (List.mem_append_left _ hother)
    · rw [hspelling] at hkeyword
      exact begins_of_keyword_eq_none hspelled hcuts.fits hkeyword first
        (by rw [List.head?_append, Option.mem_def.mp hfirst]; rfl)
  · refine ⟨by simpa using hvalue.toIsTrimmed, fun _ => by simpa using hvalue.endsClosed, ?_⟩
    rw [String.toList_ofList]
    exact exists_cuts_value hreadable hspelling hkind hbalanced hback hgap' hvalue hbehind

/-! ### Nodes -/

/-- The text of an at-rule, all of which is printed. -/
theorem atRuleText_splitKeyword {text rest : List Char} {length : Nat} (htext : text = '@' :: rest)
    (hlength : 0 < length) {name afterName params : String}
    (hsplit : splitKeyword text length = (name, afterName, params))
    (htame : isTameAtRule name params (some afterName)) :
    atRuleText name params (some afterName) = text ∧ (params = "" → afterName = "") := by
  have hsource := source_splitKeyword htext hlength
  rw [isTameAtRule, Bool.and_eq_true] at htame
  rw [hsplit] at hsource
  by_cases hparams : params = ""
  · have hafter : afterName = "" := by simpa [hparams] using htame.2
    refine ⟨?_, fun _ => hafter⟩
    simpa [atRuleText, hparams, hafter] using hsource
  · refine ⟨?_, fun h => absurd h hparams⟩
    simpa [atRuleText, hparams] using hsource

section Spelled

variable {statement : Statement} {front : List Token} {d : Char} {length : Nat}
  (h : statement.IsSpelled front d)

include h

/-- An at-rule that is read is legible, if it is tame. -/
theorem Statement.IsSpelled.isAtRuleText {name afterName params : String}
    (hw : statement.IsWellFormed) (hkeyword : statement.keyword = some length)
    (hsplit : splitKeyword statement.text length = (name, afterName, params))
    (htame : isTameAtRule name params (some afterName)) :
    IsAtRuleText name params (some afterName) d := by
  obtain ⟨rest, htext, hlength⟩ := hw.keyword length hkeyword
  obtain ⟨hwords, hafter⟩ := atRuleText_splitKeyword htext hlength hsplit htame
  have hneat := isNeat_of_isTameAtRule htame
  rw [hwords] at hneat
  obtain ⟨hreadable, hplain⟩ := h.readable hneat.endsClosed
  have hheading : statement.plain.heading = .atRule name afterName params := by
    rw [Statement.heading_plain, Statement.heading, hkeyword]
    simp only [hsplit]
  refine ⟨hwords ▸ hreadable, ⟨afterName, by rw [hwords, hplain, hheading]⟩, ?_⟩
  rw [hwords, hplain]
  rintro name' afterName' params' hother
  rw [hheading] at hother
  cases hother
  exact hafter

/-- The text of a declaration that is tame ends as a text may end in front of white space. -/
theorem Statement.IsSpelled.endsClosed_of_colon (hcolon : statement.colon = some length)
    {before trailing : List Char}
    (htame : (declarationOf before statement.text trailing length).isTame) :
    EndsClosed statement.text := by
  obtain ⟨r, htokens⟩ := h.tokens
  have hplain : (statementOf 0 front).colon = some length := by
    rw [h.plain]
    exact hcolon
  obtain ⟨front', token, back, rfl, hkind, hbalanced, -, rfl⟩ :=
    exists_colon h.spelled.balanced hplain
  have htoken : token ∈ Css.tokens (statement.text ++ d :: r) := by
    rw [htokens]
    simp
  have htext := text_eq_of_colon h.text hkind (fits_of_mem_tokens _ htoken)
  rw [htext] at htame
  obtain ⟨gap, gap', -, hback, -, hgap', -, hvalue, -⟩ := exists_of_isTame_declarationOf htame
  rw [htext]
  intro c hc
  by_cases hnil : trimStart (back.flatMap Token.text) = []
  · -- behind the colon there is white space only, so there is nothing
    rw [hnil, List.append_nil] at hback
    have hempty := flatMap_text_eq_nil h.spelled hkind hbalanced
      (statement.text ++ d :: r) (fun other hother => by rw [htokens]; simp [hother])
      (hback ▸ hgap')
    rw [hempty] at hc
    obtain rfl : ':' = c := by simpa using hc
    exact ⟨by decide, by decide, by decide⟩
  · -- else the value ends it, and a neat value ends so
    refine hvalue.endsClosed c ?_
    rw [hback] at hc
    obtain ⟨e, more, hcons⟩ := List.exists_cons_of_ne_nil hnil
    rw [hcons] at hc ⊢
    simpa [List.getLast?_append, List.getLast?_cons] using hc

/-- **A statement without a body is legible**, if it is tame, also where it is the last one. -/
theorem Statement.IsSpelled.isLegible_nodeOf (hw : statement.IsWellFormed)
    {before trailing : List Char} (hbefore : IsFiller before)
    (htrailing : trailing = statement.gap ∨ trailing = []) {node : Node}
    (hnode : nodeOf before statement trailing = .ok node) (htame : node.isTame) :
    node.IsLegible ∧ node.FitsBefore (some (String.ofList statement.gap)) := by
  have hgap : IsGap trailing := by
    rcases htrailing with rfl | rfl
    · exact h.gap
    · simp [IsGap]
  have hfollows : Follows (some (String.ofList trailing)) d := by
    rcases htrailing with rfl | rfl
    · exact h.follows
    · exact ⟨h.follows.inert, fun hne => absurd rfl hne⟩
  have hfiller : IsFillerSlot (some (String.ofList before)) := by
    rintro s ⟨⟩
    simpa using hbefore
  have hgapped : IsGapSlot (some (String.ofList trailing)) := by
    rintro s ⟨⟩
    simpa using hgap
  unfold nodeOf at hnode
  split at hnode
  · next length hkeyword =>
    cases hnode
    have hrule := h.isAtRuleText hw hkeyword rfl (by simpa [Node.isTame] using htame)
    exact ⟨⟨hfiller, hgapped, rfl, rfl, d, hfollows, hrule⟩, d, h.follows, hrule⟩
  · next hkeyword =>
    split at hnode
    · next colon hcolon =>
      cases hnode
      obtain ⟨hreadable, hplain⟩ := h.readable (h.endsClosed_of_colon hcolon htame)
      obtain ⟨property, value, layout, heq, hslot, hafter, hproperty, hvalue⟩ :=
        isLegible_declarationOf before trailing hreadable
          (by rw [hplain]; exact hkeyword) (by rw [hplain]; exact hcolon) htame
      rw [heq]
      refine ⟨⟨hslot ▸ hfiller, hafter ▸ hgapped, hproperty, d, hafter ▸ hfollows, hvalue⟩,
        d, h.follows, hvalue⟩
    · cases hnode

end Spelled

/-! ### Bodies -/

/-- The nodes of a container that are legible if they are tame. -/
def AreReadable (nodes : List Node) : Prop := ∀ node ∈ nodes, node.isTame → node.IsLegible

theorem AreReadable.areLegible {nodes : List Node} (h : AreReadable nodes) (htame : areTame nodes) :
    AreLegible nodes :=
  areLegible_iff.mpr fun node hnode => h node hnode (areTame_iff.mp htame node hnode)

theorem AreReadable.append {nodes : List Node} {node : Node} (h : AreReadable nodes)
    (hnode : node.isTame → node.IsLegible) : AreReadable (nodes ++ [node]) := by
  intro other hother
  rcases List.mem_append.mp hother with hother | hother
  · exact h other hother
  · rw [List.mem_singleton.mp hother]
    exact hnode

/-- What a body belongs to is legible, if it is tame. -/
def Heading.IsReadable (heading : Heading) (between : String) : Prop :=
  match heading with
  | .rule selector => selector ≠ "" → isNeat selector.toList →
      ∃ d, Follows (some between) d ∧ IsSelectorText selector d
  | .atRule name afterName params => isTameAtRule name params (some afterName) →
      ∃ d, Follows (some between) d ∧ IsAtRuleText name params (some afterName) d

/-- A body that is open. -/
structure Opening.IsReadable (opening : Opening) : Prop where
  before : IsFiller opening.before.toList
  between : IsGap opening.between.toList
  heading : opening.heading.IsReadable opening.between

/-- **A body that is closed is legible**, if it is tame. -/
theorem Opening.IsReadable.isLegible_close {opening : Opening} (h : opening.IsReadable)
    {frame : Frame} (hnodes : AreReadable frame.nodes) {after : List Char} (hafter : IsFiller after)
    (hlast : frame.semicolon = false → ∀ last ∈ frame.nodes.getLast?, last.isTame →
      last.FitsBefore (some (String.ofList after)))
    (htame : (opening.close frame after).isTame) : (opening.close frame after).IsLegible := by
  have hbefore : IsFillerSlot (some opening.before) := by
    rintro s ⟨⟩
    exact h.before
  have hbetween : IsGapSlot (some opening.between) := by
    rintro s ⟨⟩
    exact h.between
  have hfiller : IsFillerSlot (some (String.ofList after)) := by
    rintro s ⟨⟩
    simpa using hafter
  have hfits (htame : areTame frame.nodes) : some frame.semicolon = some false →
      ∀ last ∈ frame.nodes.getLast?, last.FitsBefore (some (String.ofList after)) :=
    fun hsemicolon last hmem => hlast (Option.some.inj hsemicolon) last hmem
      (areTame_iff.mp htame last (List.mem_of_getLast? hmem))
  have hheading := h.heading
  unfold Opening.close at htame ⊢
  cases hopening : opening.heading with
  | rule selector =>
    rw [hopening] at hheading
    simp only [hopening, Node.isTame, Bool.and_eq_true] at htame
    exact ⟨hbefore, hbetween, hfiller, fun hne => hheading hne htame.1, hfits htame.2,
      hnodes.areLegible htame.2⟩
  | atRule name afterName params =>
    rw [hopening] at hheading
    simp only [hopening, Node.isTame, Bool.and_eq_true] at htame
    exact ⟨hbefore, hbetween, hfiller, hheading htame.1, hfits htame.2, hnodes.areLegible htame.2⟩

/-- What a statement turns out to be when a body follows it is legible, if it is tame. -/
theorem Statement.IsSpelled.isReadable_heading {statement : Statement} {front : List Token}
    {d : Char} (h : statement.IsSpelled front d) (hw : statement.IsWellFormed) :
    statement.heading.IsReadable (String.ofList statement.gap) := by
  unfold Statement.heading
  cases hkeyword : statement.keyword with
  | some length => exact fun htame => ⟨d, h.follows, h.isAtRuleText hw hkeyword rfl htame⟩
  | none =>
    rintro - hneat
    rw [String.toList_ofList, isNeat_iff] at hneat
    obtain ⟨hreadable, hplain⟩ := h.readable hneat.endsClosed
    refine ⟨d, h.follows, ?_, ?_⟩
    · rwa [String.toList_ofList]
    · rw [String.toList_ofList, hplain]
      exact hkeyword

/-! ### The invariant -/

/-- **What the reader has read is legible**, if it is tame, in front of the rest of the text. -/
structure State.IsReadable (state : State) (rest : List Char) : Prop where
  frame : AreReadable state.frame.nodes
  outer : ∀ pair ∈ state.outer, pair.1.IsReadable ∧ AreReadable pair.2.nodes
  before : IsFiller state.before
  statement : ∀ statement, state.statement = some statement → Pending statement rest

theorem State.IsReadable.initial (cs : List Char) : State.IsReadable {} cs where
  frame := by simp [AreReadable]
  outer := by simp
  before := by simp [IsFiller]
  statement := by simp

theorem start_next (statement : Statement) (token : Token) :
    (statement.next token).start = statement.start := by
  unfold Statement.next
  split
  · rfl
  · split_ifs <;> rfl

/-- One more token of a statement. -/
theorem Pending.append {statement : Statement} {token : Token} {rest : List Char}
    {brackets : List Kind} (h : Pending statement (token.text ++ rest))
    (htokens : tokens (token.text ++ rest) = token :: tokens rest) (hclosed : token.IsClosed)
    (hadvance : advance statement.brackets token = some brackets) :
    Pending (statement.next token) rest := by
  obtain ⟨toks, ⟨first, more, hcons, hbegins⟩, htoks, hbalanced, hof, hwhole⟩ := h
  refine ⟨toks ++ [token], ⟨first, more ++ [token], by rw [hcons, List.cons_append], hbegins⟩,
    ?_, ?_, ?_, ?_⟩
  · intro other hother
    rcases List.mem_append.mp hother with hother | hother
    · exact htoks other hother
    · rwa [List.mem_singleton.mp hother]
  · rw [foldlM_advance_append_singleton, brackets_next hadvance]
    exact ⟨_, hbalanced, hadvance⟩
  · rw [start_next, statementOf_append_singleton, ← hof]
  · rw [htokens] at hwhole
    simpa using hwhole

/-- The first token of a statement. -/
theorem Pending.begin {token : Token} {rest : List Char} {brackets : List Kind}
    (htokens : tokens (token.text ++ rest) = token :: tokens rest) (hclosed : token.IsClosed)
    (hbegins : beginsStatement token.kind) (hadvance : advance [] token = some brackets)
    (start : Nat) : Pending (Statement.next { start } token) rest := by
  refine ⟨[token], ⟨token, [], rfl, hbegins⟩, by simpa using hclosed, ?_, ?_,
    by simpa using htokens⟩
  · have hbrackets : (Statement.next { start } token).brackets = brackets := brackets_next hadvance
    rw [hbrackets]
    simpa using hadvance
  · rw [start_next]
    rfl

/-- A comment that is read is legible. -/
theorem isLegible_commentOf {token : Token} {rest before : List Char}
    (htokens : tokens (token.text ++ rest) = token :: tokens rest) (hkind : token.kind = .comment)
    (hclosed : token.IsClosed) (hbefore : IsFiller before) :
    (commentOf before token).IsLegible := by
  refine ⟨by rintro s ⟨⟩; simpa using hbefore, ?_⟩
  have hfits := fits_of_tokens_eq_cons htokens
  rw [Token.Fits, hkind] at hfits
  obtain ⟨text, htext⟩ := hfits
  have hlength : 2 ≤ text.length := by
    have hunclosed := hclosed.2
    simp [Token.isUnclosedComment, hkind, htext] at hunclosed
    omega
  -- the text goes up to where the comment is closed
  have hscan : scan '/' ('*' :: (text ++ rest)) = (.comment, 1 + commentLength (text ++ rest)) := by
    simp [scan, isSpace, markKind?, slashLength]
  rw [htext, List.cons_append, List.cons_append, tokens_cons, hscan, Nat.add_comm 1] at htokens
  have hsame : text = (text ++ rest).take (commentLength (text ++ rest)) := by
    have hwhole := congrArg Token.text (List.cons.inj htokens).1
    rw [htext, List.take_succ_cons] at hwhole
    exact (List.cons.inj (List.cons.inj hwhole).2).2.symm
  obtain ⟨n, hn⟩ : ∃ n, commentLength (text ++ rest) = n + 2 := by
    refine ⟨commentLength (text ++ rest) - 2, ?_⟩
    have hle := congrArg List.length hsame
    rw [List.length_take] at hle
    omega
  have hinside : ((token.text.drop 2).take (token.text.length - 4)) <+: (text ++ rest).take n := by
    have hle := congrArg List.length hsame
    rw [List.length_take, hn] at hle
    have hshort : token.text.length - 4 ≤ n := by
      rw [htext, List.length_cons, List.length_cons]
      omega
    have htake : (token.text.drop 2).take (token.text.length - 4) =
        ((text ++ rest).take n).take (token.text.length - 4) := by
      rw [List.take_take, Nat.min_eq_left hshort, htext, List.drop_succ_cons, List.drop_succ_cons,
        List.drop_zero, List.take_append_of_le_length]
      rw [List.length_cons, List.length_cons]
      omega
    rw [htake]
    exact List.take_prefix _ _
  intro hinfix
  rw [String.toList_ofList] at hinfix
  exact contains_take_commentLength hn ( hinfix.trans hinside.isInfix)

/-- A body is opened where everything around it is legible. -/
theorem isReadable_openBody {state : State} {statement : Statement} {cs : List Char}
    (h : state.IsReadable cs) (hgap : IsGap statement.gap)
    (hheading : statement.heading.IsReadable (String.ofList statement.gap)) (rest : List Char) :
    (state.openBody statement).IsReadable rest := by
  have hopening : Opening.IsReadable ⟨statement.heading, String.ofList state.before,
      String.ofList statement.gap, state.offset⟩ :=
    ⟨by simpa using h.before, by simpa using hgap, hheading⟩
  refine ⟨by simp [State.openBody, AreReadable], ?_, by simp [State.openBody, IsFiller],
    by simp [State.openBody]⟩
  intro pair hpair
  rcases List.mem_cons.mp hpair with rfl | hpair
  · exact ⟨hopening, h.frame⟩
  · exact h.outer pair hpair

/-- A body is closed where everything in it is legible. -/
theorem isReadable_closeBody {state next : State} {rest : List Char}
    (hframe : AreReadable state.frame.nodes)
    (houter : ∀ pair ∈ state.outer, pair.1.IsReadable ∧ AreReadable pair.2.nodes)
    (hbefore : IsFiller state.before) (hnone : state.statement = none)
    (hlast : state.frame.semicolon = false → ∀ last ∈ state.frame.nodes.getLast?, last.isTame →
      last.FitsBefore (some (String.ofList state.before)))
    (h : state.closeBody = .ok next) : next.IsReadable rest := by
  unfold State.closeBody at h
  split at h
  · cases h
  · next opening frame outer hcons =>
    rw [hcons] at houter
    obtain ⟨hopening, hnodes⟩ := houter _ List.mem_cons_self
    cases h
    refine ⟨hnodes.append fun htame => hopening.isLegible_close hframe hbefore hlast htame,
      fun pair hpair => houter pair (List.mem_cons_of_mem _ hpair),
      by simp [State.push, IsFiller], ?_⟩
    intro statement hstatement
    rw [State.push] at hstatement
    simp [hnone] at hstatement

/-- A token between two statements that begins none. -/
theorem isReadable_between {state moved : State} {token : Token} {rest : List Char}
    (hw : state.IsWellFormed) (h : state.IsReadable (token.text ++ rest))
    (hstatement : state.statement = none)
    (htokens : tokens (token.text ++ rest) = token :: tokens rest) (hclosed : token.IsClosed)
    (hfits : token.Fits) (hbegins : ¬beginsStatement token.kind)
    (hmoved : state.between token = .ok moved) : moved.IsReadable rest := by
  unfold State.between at hmoved
  split at hmoved
  · next hkind =>
    cases hmoved
    rw [Token.Fits, hkind] at hfits
    refine ⟨h.frame, h.outer, h.before.append fun c hc => .inl (hfits.2 c hc), ?_⟩
    simp [hstatement]
  · next hkind =>
    cases hmoved
    rw [Token.Fits, hkind] at hfits
    refine ⟨h.frame, h.outer, h.before.append ?_, by simp [hstatement]⟩
    simp [hfits, IsFiller]
  · refine isReadable_closeBody h.frame h.outer h.before hstatement ?_ hmoved
    simp [hw.frame.semicolon]
  · next hkind =>
    cases hmoved
    refine ⟨h.frame.append fun _ => isLegible_commentOf htokens hkind hclosed h.before, h.outer,
      by simp [State.push, IsFiller], by simp [State.push, hstatement]⟩
  · -- a body without a heading
    cases hmoved
    refine isReadable_openBody h (by simp [IsGap]) ?_ rest
    exact fun hne => absurd rfl hne
  · exact absurd hbegins (by cases hkind : token.kind <;> simp_all [beginsStatement])

/-- A token that ends a statement. -/
theorem isReadable_inside {state moved : State} {statement : Statement} {token : Token}
    {rest : List Char} (hw : state.IsWellFormed) (h : state.IsReadable (token.text ++ rest))
    (hstatement : state.statement = some statement) (hfits : token.Fits)
    (hadvance : advance statement.brackets token = none)
    (hmoved : state.inside statement token = .ok moved) : moved.IsReadable rest := by
  have hpending := h.statement statement hstatement
  have hwell := hw.statement statement hstatement
  unfold advance at hadvance
  split at hadvance
  · cases hadvance
  next hbrackets =>
  split_ifs at hadvance with hends
  -- the mark ends the statement, which is complete in front of it
  obtain ⟨front, d, hspelled⟩ : ∃ front d, statement.IsSpelled front d := by
    unfold Token.Fits at hfits
    rcases hends with hkind | hkind | hkind <;> simp only [hkind] at hfits <;>
      exact (hfits ▸ hpending).exists_isSpelled hbrackets rfl
  simp only [State.inside, hbrackets] at hmoved
  rcases hends with hkind | hkind | hkind
  · -- a semicolon: the statement is a node, legible in front of it
    simp only [hkind] at hmoved
    obtain ⟨node, hnode, hmoved⟩ := bind_eq_ok.mp hmoved
    cases hmoved
    refine ⟨h.frame.append fun htame => ?_, h.outer, by simp [State.push, IsFiller], by simp⟩
    exact (hspelled.isLegible_nodeOf hwell h.before (.inl rfl) hnode htame).1
  · -- an opening brace: the statement is the heading of a body
    simp only [hkind] at hmoved
    cases hmoved
    exact isReadable_openBody h hspelled.gap (hspelled.isReadable_heading hwell) rest
  · -- a closing brace: the statement is the last node of the body, and has to fit there
    simp only [hkind] at hmoved
    obtain ⟨settled, hsettled, hmoved⟩ := bind_eq_ok.mp hmoved
    rw [State.settle, hstatement] at hsettled
    obtain ⟨node, hnode, hsettled⟩ := bind_eq_ok.mp hsettled
    cases hsettled
    have hlegible := hspelled.isLegible_nodeOf hwell h.before (.inr rfl) hnode
    refine isReadable_closeBody ?_ ?_ ?_ rfl ?_ hmoved
    · exact h.frame.append fun htame => (hlegible htame).1
    · exact h.outer
    · exact fun c hc => .inl (hspelled.gap c hc)
    · intro _ last hlast htame
      obtain rfl : node = last := by simpa [State.push] using hlast
      exact (hlegible htame).2

/-- **Reading a token keeps everything legible**, one case for each thing it can do. -/
theorem isReadable_step {state next : State} {token : Token} {rest : List Char}
    (hw : state.IsWellFormed) (h : state.IsReadable (token.text ++ rest))
    (htokens : tokens (token.text ++ rest) = token :: tokens rest)
    (hstep : step state token = .ok next) : next.IsReadable rest := by
  have hfits := fits_of_tokens_eq_cons htokens
  have hclosed := isClosed_of_step hstep
  cases hstatement : state.statement with
  | none =>
    by_cases hbegins : beginsStatement token.kind
    · obtain ⟨brackets, hadvance⟩ : ∃ brackets, advance [] token = some brackets := by
        refine ⟨_, if_neg ?_⟩
        rintro (hkind | hkind | hkind) <;> simp [hkind, beginsStatement] at hbegins
      rw [step_of_beginsStatement hstatement hclosed hbegins] at hstep
      cases hstep
      refine ⟨h.frame, h.outer, h.before, ?_⟩
      rintro statement ⟨⟩
      exact .begin htokens hclosed hbegins hadvance state.offset
    · obtain ⟨-, -, moved, hmoved, rfl⟩ := step_eq_ok.mp hstep
      rw [hstatement] at hmoved
      have hreadable : moved.IsReadable rest :=
        isReadable_between hw h hstatement htokens hclosed hfits hbegins hmoved
      exact ⟨hreadable.frame, hreadable.outer, hreadable.before, hreadable.statement⟩
  | some statement =>
    have hpending := h.statement statement hstatement
    cases hadvance : advance statement.brackets token with
    | some brackets =>
      rw [step_of_advance hstatement hclosed hadvance] at hstep
      cases hstep
      refine ⟨h.frame, h.outer, h.before, ?_⟩
      rintro other ⟨⟩
      exact hpending.append htokens hclosed hadvance
    | none =>
      obtain ⟨-, -, moved, hmoved, rfl⟩ := step_eq_ok.mp hstep
      rw [hstatement] at hmoved
      have hreadable : moved.IsReadable rest :=
        isReadable_inside hw h hstatement hfits hadvance hmoved
      exact ⟨hreadable.frame, hreadable.outer, hreadable.before, hreadable.statement⟩

/-- **So does reading all tokens of a text.** -/
theorem isReadable_steps {cs : List Char} {state next : State} (hw : state.IsWellFormed)
    (h : state.IsReadable cs) (hsteps : (tokens cs).foldlM step state = .ok next) :
    next.IsWellFormed ∧ next.IsReadable [] := by
  induction cs using tokens.induct generalizing state with
  | case1 =>
    rw [tokens] at hsteps
    cases hsteps
    exact ⟨hw, h⟩
  | case2 c rest kind n hscan ih =>
    have htokens := tokens_cons c rest
    rw [hscan] at htokens
    have hcs : c :: rest = (⟨kind, c :: rest.take n⟩ : Token).text ++ rest.drop n := by
      rw [List.cons_append, List.take_append_drop]
    rw [htokens, List.foldlM_cons] at hsteps
    obtain ⟨middle, hmiddle, hsteps⟩ := bind_eq_ok.mp hsteps
    have hfits := fits_of_tokens_eq_cons htokens
    rw [hcs] at h htokens
    exact ih (State.source_of_step hw hfits hmiddle).1 (isReadable_step hw h htokens hmiddle) hsteps

end Reader

/-- **A style sheet that is read is legible**, if it is tame, and if its last statement ends with
a semicolon. -/
theorem isLegible_of_ofString {text : String} {sheet : Sheet} (h : Sheet.ofString text = .ok sheet)
    (hsemicolon : sheet.semicolon = true) :
    Reader.AreReadable sheet.nodes ∧ IsFiller sheet.after.toList := by
  unfold Sheet.ofString at h
  split at h
  · next read hread =>
    cases h
    obtain ⟨state, hstate, hfinish⟩ := Reader.bind_eq_ok.mp hread
    obtain ⟨hw, hreadable⟩ := Reader.isReadable_steps .initial (.initial _) hstate
    obtain ⟨settled, hsettled, hfinish⟩ := Reader.bind_eq_ok.mp hfinish
    unfold Reader.State.settle at hsettled
    split at hsettled
    · cases hsettled
      split at hfinish
      · cases hfinish
      · cases hfinish
        exact ⟨hreadable.frame, by simpa using hreadable.before⟩
    · -- a statement that nothing ends is one without its semicolon
      obtain ⟨node, -, hsettled⟩ := Reader.bind_eq_ok.mp hsettled
      cases hsettled
      split at hfinish
      · cases hfinish
      · cases hfinish
        cases hsemicolon
  · cases h

/-! ### The end of a style sheet -/

/-- The node with other white space in front of its semicolon. -/
def Node.withGap (gap : String) : Node → Node
  | .declaration property value layout =>
    .declaration property value { layout with after := some gap }
  | .statement name params layout => .statement name params { layout with between := some gap }
  | node => node

/-- **The style sheet with a semicolon at its end**, if its last statement is without one. -/
def Sheet.ended (sheet : Sheet) : Sheet where
  nodes := sheet.nodes.modifyLast (Node.withGap sheet.after)
  after := ""
  semicolon := true

theorem Node.isTame_withGap (gap : String) (node : Node) :
    (node.withGap gap).isTame = node.isTame := by
  cases node <;> rfl

/-- A statement that nothing ends is the last node of a style sheet. -/
theorem exists_nodeOf_of_ofString {text : String} {sheet : Sheet}
    (h : Sheet.ofString text = .ok sheet) (hsemicolon : sheet.semicolon = false) :
    ∃ front before statement last, sheet.nodes = front ++ [last] ∧
      Reader.nodeOf before statement [] = .ok last := by
  unfold Sheet.ofString at h
  split at h
  · next read hread =>
    cases h
    obtain ⟨state, hstate, hfinish⟩ := Reader.bind_eq_ok.mp hread
    obtain ⟨hw, -⟩ := Reader.isReadable_steps .initial (.initial _) hstate
    obtain ⟨settled, hsettled, hfinish⟩ := Reader.bind_eq_ok.mp hfinish
    unfold Reader.State.settle at hsettled
    split at hsettled
    · cases hsettled
      split at hfinish
      · cases hfinish
      · cases hfinish
        simp [hw.frame.semicolon] at hsemicolon
    · next statement _ =>
      obtain ⟨node, hnode, hsettled⟩ := Reader.bind_eq_ok.mp hsettled
      cases hsettled
      split at hfinish
      · cases hfinish
      · cases hfinish
        exact ⟨state.frame.nodes, state.before, statement, node, rfl, hnode⟩
  · cases h

/-- A statement that nothing ends is legible there, if it is so in front of a semicolon. -/
theorem isLegible_of_withGap {before : List Char} {statement : Reader.Statement} {node : Node}
    {gap : String} (hnode : Reader.nodeOf before statement [] = .ok node)
    (h : (node.withGap gap).IsLegible) :
    node.IsLegible ∧ IsGap gap.toList ∧ node.FitsBefore (some gap) := by
  have hnone : IsGapSlot (some "") := by
    rintro s ⟨⟩
    simp [IsGap]
  have hmark {d : Char} (hfollows : Follows (some gap) d) : Follows (some "") d :=
    ⟨hfollows.inert, fun hne => absurd rfl hne⟩
  unfold Reader.nodeOf at hnode
  split at hnode
  · cases hnode
    obtain ⟨hbefore, hgap, -, -, d, hfollows, hrule⟩ := h
    exact ⟨⟨hbefore, hnone, rfl, rfl, d, hmark hfollows, hrule⟩, hgap gap rfl, d, hfollows, hrule⟩
  · split at hnode
    · cases hnode
      obtain ⟨hbefore, hgap, hproperty, d, hfollows, hvalue⟩ := h
      exact ⟨⟨hbefore, hnone, hproperty, d, hmark hfollows, hvalue⟩, hgap gap rfl, d, hfollows,
        hvalue⟩
    · cases hnode

/-- **A style sheet that is read is legible**, if it is tame, and if a semicolon ends its last
statement where that is without one. -/
theorem areLegible_of_ofString {text : String} {sheet : Sheet}
    (h : Sheet.ofString text = .ok sheet)
    (hended : sheet.semicolon = false → Sheet.ofString (text ++ ";") = .ok sheet.ended)
    (htame : areTame sheet.nodes) :
    AreLegible sheet.nodes ∧ IsFiller sheet.after.toList ∧
      ∀ after ∈ sheet.openEnd, ∀ last ∈ sheet.nodes.getLast?, last.FitsBefore after := by
  cases hsemicolon : sheet.semicolon with
  | true =>
    obtain ⟨hreadable, hafter⟩ := isLegible_of_ofString h hsemicolon
    refine ⟨hreadable.areLegible htame, hafter, fun after hopen => ?_⟩
    cases hsemicolon.symm.trans (Sheet.mem_openEnd.mp hopen).1
  | false =>
    obtain ⟨front, before, statement, last, hnodes, hlast⟩ := exists_nodeOf_of_ofString h hsemicolon
    obtain ⟨hreadable, -⟩ := isLegible_of_ofString (hended hsemicolon) rfl
    rw [Sheet.ended, hnodes, List.modifyLast_concat] at hreadable
    rw [hnodes, areTame_iff] at htame
    have hgapped : (last.withGap sheet.after).IsLegible :=
      hreadable _ (by simp) ((Node.isTame_withGap _ last).trans (htame last (by simp)))
    obtain ⟨hlegible, hgap, hfits⟩ := isLegible_of_withGap hlast hgapped
    refine ⟨?_, hgap.isFiller, ?_⟩
    · rw [hnodes, areLegible_iff]
      intro node hnode
      rcases List.mem_append.mp hnode with hfront | hlast
      · exact hreadable node (List.mem_append_left _ hfront) (htame node hnode)
      · rwa [List.mem_singleton.mp hlast]
    · intro after hafter
      obtain ⟨-, rfl⟩ := Sheet.mem_openEnd.mp hafter
      simpa [hnodes] using hfits

end Restyle.Css
