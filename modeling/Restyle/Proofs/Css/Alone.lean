import Restyle.Proofs.Css.FirstNode
import Restyle.Proofs.Css.Legibility

/-!
# Nodes that are read alone

A node that is written alone, on its own line and without what is in it, may be read as itself
or as something else (`Restyle.Css.Node.ReadsAlone`). Where it is read as itself, it is known by
which tokens: the text up to the mark that ends it, a semicolon or an opening brace, is one
statement, and it is cut into the same tokens whatever follows the mark
(`Restyle.Css.Reader.IsClause`).

The tokens are found from the node that they make. The statement that was read has the texts of
the node in it, with blanks between them; so has the text that was written, and since none of
these texts starts with a blank, one is as long as the other (`Restyle.Css.blanks_align`).
-/

namespace Restyle.Css

open Restyle.Text (isBlank trimStart trimEnd)

/-! ### Blanks between texts -/

/-- Blanks in front of something else are all that there are. -/
theorem blanks_append_inj {blanks blanks' xs ys : List Char} (hblanks : ∀ c ∈ blanks, isBlank c)
    (hblanks' : ∀ c ∈ blanks', isBlank c) (hxs : ∀ c ∈ xs.head?, ¬isBlank c)
    (hys : ∀ c ∈ ys.head?, ¬isBlank c) (h : blanks ++ xs = blanks' ++ ys) :
    blanks = blanks' ∧ xs = ys := by
  have htrim := congrArg trimStart h
  rw [Text.trimStart_blanks_append hblanks hxs, Text.trimStart_blanks_append hblanks' hys] at htrim
  subst htrim
  exact ⟨List.append_cancel_right h, rfl⟩

/-- **Two texts of the same words are of the same length**, whatever the blanks around the
words, up to what is behind them. -/
theorem blanks_align {b b' gap gap' words xs ys : List Char} (hb : ∀ c ∈ b, isBlank c)
    (hb' : ∀ c ∈ b', isBlank c) (hgap : ∀ c ∈ gap, isBlank c) (hgap' : ∀ c ∈ gap', isBlank c)
    (hwords : ∀ c ∈ words.head?, ¬isBlank c) (hxs : ∀ c ∈ xs.head?, ¬isBlank c)
    (hys : ∀ c ∈ ys.head?, ¬isBlank c)
    (h : b ++ (words ++ (gap ++ xs)) = b' ++ (words ++ (gap' ++ ys))) :
    b ++ (words ++ gap) = b' ++ (words ++ gap') ∧ xs = ys := by
  cases words with
  | nil =>
    -- without words the blanks on either side are one run
    have happend {b gap : List Char} (hb : ∀ c ∈ b, isBlank c) (hgap : ∀ c ∈ gap, isBlank c) :
        ∀ c ∈ b ++ gap, isBlank c := fun c hc =>
      (List.mem_append.mp hc).elim (hb c) (hgap c)
    refine blanks_append_inj (happend hb hgap) (happend hb' hgap') hxs hys ?_
    simpa using h
  | cons c words =>
    have hhead (rest : List Char) : ∀ d ∈ (c :: words ++ rest).head?, ¬isBlank d := hwords
    obtain ⟨rfl, hbehind⟩ := blanks_append_inj hb hb' (hhead _) (hhead _) h
    obtain ⟨rfl, rfl⟩ := blanks_append_inj hgap hgap' hxs hys (List.append_cancel_left hbehind)
    exact ⟨rfl, rfl⟩

theorem IsGap.isBlank {cs : List Char} (h : IsGap cs) : ∀ c ∈ cs, Text.isBlank c :=
  fun c hc => isBlank_of_isSpace (h c hc)

/-! ### The first character of a token -/

/-- White space and semicolons begin no statement. -/
theorem not_isSpace_of_begins {cs : List Char} {token : Token} (h : token ∈ tokens cs)
    (hbegins : Reader.beginsStatement token.kind) :
    ∀ c ∈ token.text.head?, ¬isSpace c ∧ c ≠ ';' := by
  induction cs using tokens.induct with
  | case1 => simp [tokens] at h
  | case2 c rest kind n hscan ih =>
    rw [tokens_cons, hscan] at h
    rcases List.mem_cons.mp h with rfl | h
    · have hkind : kind = (scan c rest).1 := by rw [hscan]
      rintro d ⟨⟩
      refine ⟨fun hspace => ?_, ?_⟩
      · have hsame : kind = .space := by rw [hkind]; simp [scan, hspace]
        subst hsame
        cases hbegins
      · rintro rfl
        have hsame : kind = .semicolon := by rw [hkind]; rfl
        subst hsame
        cases hbegins
    · exact ih h

namespace Reader

/-! ### The parts of a statement -/

/-- What is known of the statement that the tokens of a text make: where its colon and its
keyword are, and that behind it there is white space. -/
structure Statement.IsCut (statement : Statement) : Prop extends statement.IsWellFormed where
  colon : ∀ n, statement.colon = some n →
    ∃ front back, statement.text = front ++ ':' :: back ∧ front.length = n
  space : IsGap statement.gap

theorem Statement.IsCut.next {statement : Statement} {token : Token} (h : statement.IsCut)
    (hfits : token.Fits) : (statement.next token).IsCut := by
  have hgrows (more : List Char) {n : Nat} (hn : statement.colon = some n) :
      ∃ front back, statement.text ++ more = front ++ ':' :: back ∧ front.length = n := by
    obtain ⟨front, back, htext, hlength⟩ := h.colon n hn
    exact ⟨front, back ++ more, by simp [htext], hlength⟩
  unfold Statement.next
  split
  · next closer outer hopen =>
    exact ⟨h.toIsWellFormed.addInside hopen token, fun n hn => hgrows token.text hn, h.space⟩
  · next hopen =>
    split_ifs with hkind
    · rw [Token.Fits, hkind] at hfits
      refine ⟨⟨h.keyword, fun hne => absurd hopen hne⟩, h.colon, ?_⟩
      intro c hc
      exact (List.mem_append.mp hc).elim (h.space c) (hfits.2 c)
    · refine ⟨h.toIsWellFormed.add hfits, fun n hn => ?_, by simp [Statement.add, IsGap]⟩
      simp only [Statement.add] at hn
      split_ifs at hn with hcolon
      · rw [Token.Fits, hcolon.1] at hfits
        cases hn
        exact ⟨statement.text ++ statement.gap, [], by simp [Statement.add, hfits], rfl⟩
      · obtain ⟨front, back, htext, hlength⟩ := hgrows (statement.gap ++ token.text) hn
        exact ⟨front, back, by rw [← htext]; simp [Statement.add], hlength⟩

theorem isCut_statementOf {toks : List Token} (hfits : ∀ token ∈ toks, token.Fits) (start : Nat) :
    (statementOf start toks).IsCut := by
  induction toks using List.reverseRecOn with
  | nil => exact ⟨.fresh start, by simp [statementOf], by simp [statementOf, IsGap]⟩
  | append_singleton toks token ih =>
    rw [statementOf_append_singleton]
    exact (ih fun other hother => hfits other (by simp [hother])).next (hfits token (by simp))

/-- The parts of an at-rule: there are blanks in front of its parameters, and no more. -/
theorem splitKeyword_eq {text rest : List Char} {n : Nat} (htext : text = '@' :: rest)
    (hn : 0 < n) {name afterName params : String}
    (hsplit : splitKeyword text n = (name, afterName, params)) :
    text = '@' :: (name.toList ++ (afterName.toList ++ params.toList)) ∧
      (∀ c ∈ afterName.toList, isBlank c) ∧ ∀ c ∈ params.toList.head?, ¬isBlank c := by
  have hsource := source_splitKeyword htext hn
  rw [hsplit] at hsource
  refine ⟨by rw [← hsource, List.append_assoc], ?_⟩
  simp only [splitKeyword, Prod.mk.injEq] at hsplit
  obtain ⟨-, rfl, rfl⟩ := hsplit
  have hlength : (text.drop n).length - (trimStart (text.drop n)).length =
      ((text.drop n).takeWhile isBlank).length := by
    have hwhole := congrArg List.length
      (List.takeWhile_append_dropWhile (p := isBlank) (l := text.drop n))
    rw [List.length_append] at hwhole
    rw [trimStart]
    omega
  have htake := List.prefix_iff_eq_take.mp (List.takeWhile_prefix isBlank (l := text.drop n))
  rw [String.toList_ofList, String.toList_ofList, hlength, ← htake]
  exact ⟨fun c hc => List.mem_takeWhile_imp hc, Text.not_isBlank_head?_trimStart _⟩

theorem Statement.outline?_statementOf (start : Nat) (toks : List Token) :
    (statementOf start toks).outline? = (statementOf 0 toks).outline? := by
  rw [statementOf_start start 0]
  rfl

theorem Statement.heading_statementOf (start : Nat) (toks : List Token) :
    (statementOf start toks).heading = (statementOf 0 toks).heading := by
  rw [statementOf_start start 0]
  rfl

/-- The parts of a declaration. -/
theorem Statement.IsCut.of_declaration {statement : Statement} (h : statement.IsCut)
    {property value : String}
    (houtline : statement.outline? = some (.declaration property value {})) :
    ∃ gap gap', statement.text = property.toList ++ (gap ++ ':' :: (gap' ++ value.toList)) ∧
      (∀ c ∈ gap, isBlank c) ∧ (∀ c ∈ gap', isBlank c) ∧ ∀ c ∈ value.toList.head?, ¬isBlank c := by
  unfold Statement.outline? at houtline
  split at houtline
  · cases houtline
  · obtain ⟨n, hcolon, hnode⟩ := Option.map_eq_some_iff.mp houtline
    obtain ⟨front, back, htext, rfl⟩ := h.colon n hcolon
    have htake : (front ++ ':' :: back).take front.length = front := List.take_left
    have hdrop : (front ++ ':' :: back).drop (front.length + 1) = back := by
      rw [← List.drop_drop, List.drop_left, List.drop_one, List.tail_cons]
    simp only [htext, htake, hdrop, Node.declaration.injEq, and_true] at hnode
    obtain ⟨rfl, rfl⟩ := hnode
    obtain ⟨gap, gap', hfront, hback, hgap, hgap', -⟩ := declarationOf_eq [] front back []
    refine ⟨gap, gap', ?_, hgap, hgap', ?_⟩
    · rw [String.toList_ofList, String.toList_ofList, htext, ← hback, ← List.append_assoc, ← hfront]
    · rw [String.toList_ofList]
      exact Text.not_isBlank_head?_trimStart back

/-- The parts of an at-rule. -/
theorem Statement.IsCut.of_atRule {statement : Statement} (h : statement.IsCut)
    {name afterName params : String}
    (hheading : statement.heading = .atRule name afterName params) :
    statement.text = '@' :: (name.toList ++ (afterName.toList ++ params.toList)) ∧
      (∀ c ∈ afterName.toList, isBlank c) ∧ ∀ c ∈ params.toList.head?, ¬isBlank c := by
  unfold Statement.heading at hheading
  split at hheading
  · next n hn =>
    obtain ⟨rest, hrest, hpos⟩ := h.keyword n hn
    simp only [Heading.atRule.injEq] at hheading
    obtain ⟨rfl, rfl, rfl⟩ := hheading
    exact splitKeyword_eq hrest hpos rfl
  · cases hheading

/-- A rule has no parts. -/
theorem Statement.text_of_rule {statement : Statement} {selector : String}
    (hheading : statement.heading = .rule selector) : statement.text = selector.toList := by
  unfold Statement.heading at hheading
  split at hheading
  · cases hheading
  · cases hheading
    exact String.toList_ofList.symm

/-! ### Clauses -/

/-- **A text is one statement**, up to a mark that ends it: it is cut into the tokens of a
statement, whatever is behind the mark. -/
structure IsClause (toks : List Token) (cs : List Char) (c : Char) : Prop where
  cuts : Cuts toks cs c
  begins : Begins toks
  balanced : toks.foldlM advance [] = some []

/-- **The tokens of a text**: a statement, white space and semicolons in front of it, and the mark
that ends it, if there is one. -/
structure IsSplit (cs : List Char) (skips stmt rest : List Token) (brackets : List Kind) :
    Prop where
  tokens : Css.tokens cs = skips ++ (stmt ++ rest)
  closed : ∀ token ∈ skips ++ (stmt ++ rest), token.IsClosed
  skips : ∀ token ∈ skips, token.kind = .space ∨ token.kind = .semicolon
  begins : Begins stmt
  balanced : stmt.foldlM advance [] = some brackets
  mark : ∀ mark ∈ rest.head?, brackets = [] ∧ (mark.kind = .semicolon ∨ mark.kind = .openCurly)

section Split

variable {cs : List Char} {skips stmt rest : List Token} {brackets : List Kind}
  (h : IsSplit cs skips stmt rest brackets)

include h

theorem IsSplit.fits : ∀ token ∈ skips ++ (stmt ++ rest), token.Fits :=
  fun _ htoken => fits_of_mem_tokens cs (h.tokens ▸ htoken)

theorem IsSplit.isCut (start : Nat) : (statementOf start stmt).IsCut :=
  isCut_statementOf (fun token htoken => h.fits token (by simp [htoken])) start

/-- There is nothing in front of a statement whose text is the first. -/
theorem IsSplit.skips_eq_nil (hhead : ∀ e ∈ cs.head?, isSpace e ∨ e = ';' →
    (stmt.flatMap Token.text).head? = some e) : skips = [] := by
  cases skips with
  | nil => rfl
  | cons token skips =>
    exfalso
    have htext := text_tokens cs
    rw [h.tokens] at htext
    -- the first character is one of what was skipped, but it is the statement's
    obtain ⟨e, more, htoken, he⟩ : ∃ e more, token.text = e :: more ∧ (isSpace e ∨ e = ';') := by
      have hfits := h.fits token (by simp)
      rcases h.skips token List.mem_cons_self with hkind | hkind <;> rw [Token.Fits, hkind] at hfits
      · obtain ⟨e, more, htoken⟩ := List.exists_cons_of_ne_nil hfits.1
        exact ⟨e, more, htoken, .inl (hfits.2 e (by simp [htoken]))⟩
      · exact ⟨';', [], hfits, .inr rfl⟩
    have hfirst := hhead e (by rw [← htext]; simp [htoken]) he
    obtain ⟨first, others, rfl, hkind⟩ := h.begins
    have hne := (h.fits first (by simp)).ne_nil
    rw [List.flatMap_cons, List.head?_append_of_ne_nil _ hne] at hfirst
    have hmem : first ∈ Css.tokens cs := by
      rw [h.tokens]
      simp
    obtain ⟨hspace, hsemicolon⟩ := not_isSpace_of_begins hmem hkind e hfirst
    exact he.elim hspace hsemicolon

end Split

/-- **A statement in front of its mark is a clause**, if its parts and the blanks between them are
as long as the text. -/
theorem IsSplit.isClause {cs behind : List Char} {c : Char} {skips stmt rest : List Token}
    {brackets : List Kind} (h : IsSplit (cs ++ c :: behind) skips stmt rest brackets)
    (hc : IsMark c) (start : Nat)
    (hhead : ∀ e ∈ (cs ++ c :: behind).head?, isSpace e ∨ e = ';' →
      (statementOf start stmt).text.head? = some e)
    (halign : ∀ back, (∀ e ∈ back.head?, ¬isBlank e) →
      (statementOf start stmt).text ++ ((statementOf start stmt).gap ++ back) = cs ++ c :: behind →
      (statementOf start stmt).text ++ (statementOf start stmt).gap = cs ∧ back = c :: behind) :
    IsClause stmt cs c := by
  obtain ⟨-, -, hstmt⟩ := statementOf_spec h.balanced start
  obtain rfl : skips = [] := by
    refine h.skips_eq_nil fun e he hfiller => ?_
    rw [← hstmt, List.head?_append, hhead e he hfiller]
    rfl
  have htokens := h.tokens
  have htext := text_tokens (cs ++ c :: behind)
  rw [List.nil_append] at htokens
  rw [htokens, List.flatMap_append, ← hstmt, List.append_assoc] at htext
  have hblank : ∀ e ∈ (rest.flatMap Token.text).head?, ¬isBlank e := by
    cases rest with
    | nil => simp
    | cons mark rest =>
      have hfits := h.fits mark (by simp)
      rcases (h.mark mark rfl).2 with hkind | hkind <;> rw [Token.Fits, hkind] at hfits <;>
        simp [hfits] <;> decide
  -- so the statement is the text up to the mark, and the mark is there
  obtain ⟨hcs, hback⟩ := halign _ hblank htext
  rw [hstmt] at hcs
  obtain rfl : brackets = [] := by
    cases rest with
    | nil => simp at hback
    | cons mark rest => exact (h.mark mark rfl).1
  have hbehind : Css.tokens (c :: behind) = rest := by
    rw [← hcs] at htokens
    exact tokens_of_append htokens
  rw [← hbehind] at htokens
  exact ⟨.of_tokens hcs (fun token htoken => h.closed token (by simp [htoken]))
    hc.isInert (fun hspace => absurd (isBlank_of_isSpace hspace) hc.not_isBlank) htokens,
    h.begins, h.balanced⟩

/-! ### The texts of statements -/

section Texts

variable {behind : List Char} {c : Char} {skips stmt rest : List Token} {brackets : List Kind}
  {start : Nat}

/-- The text of a declaration. -/
theorem IsSplit.isClause_declaration {property value : String}
    (h : IsSplit ((property ++ ": " ++ value).toList ++ c :: behind) skips stmt rest brackets)
    (hc : IsMark c)
    (houtline : (statementOf start stmt).outline? = some (.declaration property value {})) :
    IsClause stmt (property ++ ": " ++ value).toList c := by
  obtain ⟨gap, gap', htext, hgap, hgap', hvalue⟩ := (h.isCut start).of_declaration houtline
  have hspace : IsGap (statementOf start stmt).gap := (h.isCut start).space
  have hcolon (cs : List Char) : ∀ e ∈ (':' :: cs).head?, ¬isBlank e := by
    rintro e ⟨⟩
    decide
  have hwritten : (property ++ ": " ++ value).toList ++ c :: behind =
      property.toList ++ ':' :: ' ' :: (value.toList ++ c :: behind) := by simp
  refine h.isClause hc start ?_ ?_ <;> rw [hwritten, htext]
  · -- a property that is empty leaves the colon as the first character
    intro e he hfiller
    cases hproperty : property.toList with
    | nil =>
      rw [hproperty] at he
      cases he
      exact absurd hfiller (by decide)
    | cons first property =>
      rw [hproperty] at he
      exact he
  · intro back hback heq
    simp only [List.append_assoc, List.cons_append] at heq ⊢
    -- the colon is what follows the property in both texts, blanks apart
    have hparts : gap = [] ∧
        ':' :: (gap' ++ (value.toList ++ ((statementOf start stmt).gap ++ back))) =
          ':' :: ' ' :: (value.toList ++ c :: behind) :=
      blanks_append_inj hgap (by simp) (hcolon _) (hcolon _) (List.append_cancel_left heq)
    obtain ⟨rfl, hparts⟩ := hparts
    obtain ⟨hvalues, hends⟩ : gap' ++ (value.toList ++ (statementOf start stmt).gap) =
        [' '] ++ (value.toList ++ []) ∧ back = c :: behind :=
      blanks_align hgap' isGap_space.isBlank hspace.isBlank (by simp) hvalue hback
        (by rintro e ⟨⟩; exact hc.not_isBlank) (List.cons.inj hparts).2
    exact ⟨by simp [hvalues], hends⟩

/-- The text of the name and the parameters of an at-rule. -/
theorem toList_atRuleText (name params : String) :
    ∃ gap, atRuleText name params none = '@' :: (name.toList ++ (gap ++ params.toList)) ∧
      ∀ c ∈ gap, isBlank c := by
  by_cases hparams : params = ""
  · exact ⟨[], by simp [atRuleText, hparams], by simp⟩
  · exact ⟨[' '], by simp [atRuleText, hparams], isGap_space.isBlank⟩

theorem IsSplit.isClause_atRule {name afterName params : String} {gap : List Char}
    (h : IsSplit (atRuleText name params none ++ gap ++ c :: behind) skips stmt rest brackets)
    (hgap : ∀ e ∈ gap, isBlank e) (hc : IsMark c)
    (hheading : (statementOf start stmt).heading = .atRule name afterName params) :
    IsClause stmt (atRuleText name params none ++ gap) c := by
  obtain ⟨htext, hafter, hparams⟩ := (h.isCut start).of_atRule hheading
  have hspace : IsGap (statementOf start stmt).gap := (h.isCut start).space
  obtain ⟨gap', hwritten, hgap'⟩ := toList_atRuleText name params
  refine h.isClause hc start ?_ ?_ <;> rw [hwritten, htext]
  · rintro e ⟨⟩ -
    rfl
  · intro back hback heq
    simp only [List.append_assoc, List.cons_append, List.cons.injEq, true_and] at heq ⊢
    obtain ⟨hwords, hends⟩ := blanks_align hafter hgap' hspace.isBlank hgap hparams hback
      (by rintro e ⟨⟩; exact hc.not_isBlank) (List.append_cancel_left heq)
    exact ⟨by rw [hwords], hends⟩

/-- The text of a selector. -/
theorem IsSplit.isClause_rule {selector : String} {gap : List Char}
    (h : IsSplit (selector.toList ++ gap ++ c :: behind) skips stmt rest brackets)
    (hne : selector ≠ "") (hgap : ∀ e ∈ gap, isBlank e) (hc : IsMark c)
    (hheading : (statementOf start stmt).heading = .rule selector) :
    IsClause stmt (selector.toList ++ gap) c := by
  have htext := Statement.text_of_rule hheading
  have hspace : IsGap (statementOf start stmt).gap := (h.isCut start).space
  obtain ⟨first, more, hselector⟩ :=
    List.exists_cons_of_ne_nil (mt String.toList_eq_nil_iff.mp hne)
  refine h.isClause hc start ?_ ?_ <;> rw [htext]
  · rw [hselector]
    exact fun e he _ => he
  · intro back hback heq
    rw [List.append_assoc] at heq
    obtain ⟨hgaps, hends⟩ := blanks_append_inj hspace.isBlank hgap hback
      (by rintro e ⟨⟩; exact hc.not_isBlank) (List.append_cancel_left heq)
    exact ⟨by rw [hgaps], hends⟩

end Texts

end Reader

/-! ### Nodes alone -/

/-- A node without its layout, and with nothing in it. -/
def Node.hollow : Node → Node
  | .comment text _ => .comment text {}
  | .declaration property value _ => .declaration property value {}
  | .statement name params _ => .statement name params {}
  | .block name params _ _ => .block name params [] {}
  | .rule selector _ _ => .rule selector [] {}

/-- **A node reads alone** if the text of it, with an empty body where it has one, is read as one
node like it: of the same kind and with the same texts. -/
def Node.ReadsAlone (node : Node) : Prop :=
  ∃ sheet, Sheet.ofString (Sheet.render { nodes := [node.hollow] }) = .ok sheet ∧
    sheet.nodes.map Node.hollow = [node.hollow]

namespace Reader

/-- What a finished statement makes shows what it is. -/
theorem outline?_of_nodeOf {before trailing : List Char} {statement : Statement} {node : Node}
    (h : nodeOf before statement trailing = .ok node) : statement.outline? = some node.hollow := by
  unfold nodeOf at h
  unfold Statement.outline? Statement.heading
  cases hkeyword : statement.keyword with
  | some length =>
    simp only [hkeyword, Except.ok.injEq] at h ⊢
    rw [← h]
    rfl
  | none =>
    cases hcolon : statement.colon with
    | none =>
      simp only [hkeyword, hcolon] at h
      cases h
    | some colon =>
      simp only [hkeyword, hcolon, Except.ok.injEq] at h ⊢
      rw [← h]
      rfl

/-- A finished statement is an at-rule without a body, or a declaration. -/
theorem Statement.cases_outline? {statement : Statement} {node : Node}
    (h : statement.outline? = some node) :
    (∃ name afterName params, statement.heading = .atRule name afterName params ∧
      node = .statement name params {}) ∨
      ∃ property value, node = .declaration property value {} := by
  unfold Statement.outline? at h
  split at h
  · next name afterName params hheading =>
    cases h
    exact .inl ⟨name, afterName, params, hheading, rfl⟩
  · obtain ⟨n, -, rfl⟩ := Option.map_eq_some_iff.mp h
    exact .inr ⟨_, _, rfl⟩

/-- A body makes a rule or a block. -/
theorem Heading.cases_outline {heading : Heading} {nodes : List Node} {node : Node}
    (h : heading.outline nodes = node) :
    (∃ selector, heading = .rule selector ∧ node = .rule selector nodes {}) ∨
      ∃ name afterName params, heading = .atRule name afterName params ∧
        node = .block name params nodes {} := by
  subst h
  cases heading with
  | rule selector => exact .inl ⟨selector, rfl, rfl⟩
  | atRule name afterName params => exact .inr ⟨name, afterName, params, rfl, rfl⟩

theorem Opening.hollow_close (opening : Opening) (inner : Frame) (after : List Char) :
    (opening.close inner after).hollow = opening.heading.outline [] := by
  obtain ⟨heading, before, between, offset⟩ := opening
  cases heading <;> rfl

/-- What the first tokens make, by the node that is made. -/
theorem FirstNode.cases_hollow {toks : List Token} {node : Node} (h : FirstNode toks node) :
    (∃ token rest before, toks = token :: rest ∧ token.kind = .comment ∧
      node = commentOf before token) ∨
    node.hollow = .rule "" [] {} ∨
    ∃ stmt rest brackets start, toks = stmt ++ rest ∧ Begins stmt ∧
      stmt.foldlM advance [] = some brackets ∧
      (∀ mark ∈ rest.head?, brackets = [] ∧ (mark.kind = .semicolon ∨ mark.kind = .openCurly)) ∧
      ((statementOf start stmt).outline? = some node.hollow ∨
        (statementOf start stmt).heading.outline [] = node.hollow) := by
  cases h with
  | comment rest before hkind => exact .inl ⟨_, rest, before, rfl, hkind, rfl⟩
  | bare rest inner after hheading =>
    exact .inr (.inl (by rw [Opening.hollow_close, hheading]; rfl))
  | statement brackets hbegins hbalanced hnode hrest =>
    exact .inr (.inr ⟨_, _, brackets, _, rfl, hbegins, hbalanced,
      fun mark hmark => ⟨(hrest mark hmark).1, .inl (hrest mark hmark).2⟩,
      .inl (outline?_of_nodeOf hnode)⟩)
  | @body stmt mark start opening rest inner after hbegins hbalanced hkind hheading =>
    refine .inr (.inr ⟨stmt, mark :: rest, [], start, rfl, hbegins, hbalanced, ?_, .inr ?_⟩)
    · rintro other ⟨⟩
      exact ⟨rfl, .inr hkind⟩
    · rw [Opening.hollow_close, hheading]

end Reader

namespace Node

open Reader (IsClause IsSplit statementOf FirstNode commentOf)

variable {node : Node}

theorem toList_render_hollow (node : Node) :
    (Sheet.render { nodes := [node.hollow] }).toList = (node.hollow.render 0 true).toList := by
  cases node <;> simp [Sheet.render, renderNodes, hollow, layout, defaultBefore]

/-- The tokens of a node that reads alone, and the node that they make. -/
theorem ReadsAlone.exists_firstNode (h : node.ReadsAlone) :
    ∃ skips rest found, tokens (node.hollow.render 0 true).toList = skips ++ rest ∧
      (∀ token ∈ skips ++ rest, token.IsClosed) ∧
      (∀ token ∈ skips, token.kind = .space ∨ token.kind = .semicolon) ∧
      FirstNode rest found ∧ found.hollow = node.hollow := by
  obtain ⟨sheet, hsheet, hhollow⟩ := h
  obtain ⟨found, hnodes, hfound⟩ : ∃ found, sheet.nodes = [found] ∧ found.hollow = node.hollow := by
    obtain ⟨found, rest, hnodes, hfound, hrest⟩ := List.map_eq_cons_iff.mp hhollow
    rw [List.map_eq_nil_iff] at hrest
    exact ⟨found, hrest ▸ hnodes, hfound⟩
  unfold Sheet.ofString at hsheet
  split at hsheet
  · next read hread =>
    cases hsheet
    obtain ⟨last, hlast, hfinish⟩ := Reader.bind_eq_ok.mp hread
    rw [toList_render_hollow] at hlast
    have hhead : sheet.nodes.head? = some found := by rw [hnodes]; rfl
    obtain ⟨skips, rest, htokens, hskips, hfirst⟩ :=
      Reader.exists_firstNode hlast hfinish rfl rfl rfl hhead
    exact ⟨skips, rest, found, htokens, htokens ▸ Reader.closed_of_steps hlast, hskips,
      hfirst, hfound⟩
  · cases hsheet

/-- The text of a comment that reads alone does not close it. -/
theorem ReadsAlone.not_infix_text {text : String} {layout : Layout}
    (h : (Node.comment text layout).ReadsAlone) : ¬['*', '/'] <:+: text.toList := by
  obtain ⟨skips, rest, found, htokens, hclosed, -, hfirst, hfound⟩ := h.exists_firstNode
  rcases hfirst.cases_hollow with ⟨token, rest, before, rfl, hkind, rfl⟩ | hrule |
    ⟨stmt, rest, brackets, start, -, -, -, -, houtline | hheading⟩
  · -- the comment is a token of its own in front of the rest
    have hbehind : tokens (token.text ++ rest.flatMap Token.text) = token :: rest := by
      have htext := text_tokens ((Node.comment text layout).hollow.render 0 true).toList
      rw [htokens, List.flatMap_append, List.flatMap_cons] at htext
      rw [← htext] at htokens
      exact tokens_of_append htokens
    have hrest : tokens (rest.flatMap Token.text) = rest := by
      have hsingle : tokens ([token].flatMap Token.text ++ rest.flatMap Token.text) =
          [token] ++ rest := by simpa using hbehind
      exact tokens_of_append hsingle
    have hlegible : (commentOf [] token).IsLegible :=
      Reader.isLegible_commentOf (by rw [hbehind, hrest]) hkind
        (hclosed token (by simp)) isFiller_nil
    simp only [commentOf, hollow, Node.comment.injEq, and_true] at hfound
    rw [← hfound]
    exact hlegible.2
  · rw [hfound] at hrule
    cases hrule
  · rw [hfound] at houtline
    rcases Reader.Statement.cases_outline? houtline with ⟨_, _, _, -, hnode⟩ | ⟨_, _, hnode⟩ <;>
      cases hnode
  · rw [hfound] at hheading
    rcases Reader.Heading.cases_outline hheading with ⟨_, -, hnode⟩ | ⟨_, _, _, -, hnode⟩ <;>
      cases hnode

/-- The statement that a node is read from alone, unless it is a comment or has neither text nor
name. -/
theorem ReadsAlone.exists_isSplit (h : node.ReadsAlone)
    (hcomment : ∀ text, node.hollow ≠ .comment text {}) (hrule : node.hollow ≠ .rule "" [] {}) :
    ∃ skips stmt rest brackets start,
      IsSplit (node.hollow.render 0 true).toList skips stmt rest brackets ∧
      ((statementOf start stmt).outline? = some node.hollow ∨
        (statementOf start stmt).heading.outline [] = node.hollow) := by
  obtain ⟨skips, rest, found, htokens, hclosed, hskips, hfirst, hfound⟩ := h.exists_firstNode
  rcases hfirst.cases_hollow with ⟨token, rest, before, -, -, rfl⟩ | hbare |
    ⟨stmt, rest, brackets, start, rfl, hbegins, hbalanced, hmark, hmakes⟩
  · exact absurd hfound.symm (hcomment _)
  · exact absurd (hfound ▸ hbare) hrule
  · rw [hfound] at hmakes
    exact ⟨skips, stmt, rest, brackets, start,
      ⟨htokens, hclosed, hskips, hbegins, hbalanced, hmark⟩, hmakes⟩

/-- **The clause of a declaration** that reads alone. -/
theorem ReadsAlone.exists_declaration {property value : String} {layout : Layout}
    (h : (Node.declaration property value layout).ReadsAlone) :
    ∃ toks, IsClause toks (property ++ ": " ++ value).toList ';' ∧
      (statementOf 0 toks).outline? = some (.declaration property value {}) := by
  obtain ⟨skips, stmt, rest, brackets, start, hsplit, houtline | hheading⟩ :=
    h.exists_isSplit (by simp [hollow]) (by simp [hollow])
  · have hwritten : ((Node.declaration property value layout).hollow.render 0 true).toList =
        (property ++ ": " ++ value).toList ++ [';'] := by simp [hollow, render]
    rw [hwritten] at hsplit
    exact ⟨stmt, hsplit.isClause_declaration (.inl rfl) houtline,
      Reader.Statement.outline?_statementOf start stmt ▸ houtline⟩
  · rcases Reader.Heading.cases_outline hheading with ⟨_, -, hnode⟩ | ⟨_, _, _, -, hnode⟩ <;>
      cases hnode

/-- **The clause of an at-rule** that reads alone, without a body. -/
theorem ReadsAlone.exists_statement {name params : String} {layout : Layout}
    (h : (Node.statement name params layout).ReadsAlone) :
    ∃ toks, IsClause toks (atRuleText name params none) ';' ∧
      (statementOf 0 toks).outline? = some (.statement name params {}) := by
  obtain ⟨skips, stmt, rest, brackets, start, hsplit, houtline | hheading⟩ :=
    h.exists_isSplit (by simp [hollow]) (by simp [hollow])
  · have hwritten : ((Node.statement name params layout).hollow.render 0 true).toList =
        atRuleText name params none ++ [] ++ [';'] := by simp [hollow, render, atRuleText]
    rw [hwritten] at hsplit
    obtain ⟨afterName, hatRule⟩ : ∃ afterName,
        (statementOf start stmt).heading = .atRule name afterName params := by
      rcases Reader.Statement.cases_outline? houtline with
        ⟨_, afterName, _, hatRule, hnode⟩ | ⟨_, _, hnode⟩ <;> cases hnode
      exact ⟨afterName, hatRule⟩
    have hclause := hsplit.isClause_atRule (by simp) (.inl rfl) hatRule
    rw [List.append_nil] at hclause
    exact ⟨stmt, hclause, Reader.Statement.outline?_statementOf start stmt ▸ houtline⟩
  · rcases Reader.Heading.cases_outline hheading with ⟨_, -, hnode⟩ | ⟨_, _, _, -, hnode⟩ <;>
      cases hnode

/-- **The clause of a block** that reads alone, up to its opening brace. -/
theorem ReadsAlone.exists_block {name params : String} {nodes : List Node} {layout : Layout}
    (h : (Node.block name params nodes layout).ReadsAlone) :
    ∃ toks afterName, IsClause toks (atRuleText name params none ++ [' ']) '\x7b' ∧
      (statementOf 0 toks).heading = .atRule name afterName params := by
  obtain ⟨skips, stmt, rest, brackets, start, hsplit, houtline | hheading⟩ :=
    h.exists_isSplit (by simp [hollow]) (by simp [hollow])
  · rcases Reader.Statement.cases_outline? houtline with ⟨_, _, _, -, hnode⟩ | ⟨_, _, hnode⟩ <;>
      cases hnode
  · have hwritten : ((Node.block name params nodes layout).hollow.render 0 true).toList =
        atRuleText name params none ++ [' '] ++ '\x7b' :: "\n\x7d".toList := by
      simp [hollow, render, renderNodes, atRuleText, toList_indentation]
    rw [hwritten] at hsplit
    obtain ⟨afterName, hatRule⟩ : ∃ afterName,
        (statementOf start stmt).heading = .atRule name afterName params := by
      rcases Reader.Heading.cases_outline hheading with
        ⟨_, -, hnode⟩ | ⟨_, afterName, _, hatRule, hnode⟩ <;> cases hnode
      exact ⟨afterName, hatRule⟩
    exact ⟨stmt, afterName, hsplit.isClause_atRule isGap_space.isBlank (.inr (.inl rfl)) hatRule,
      Reader.Statement.heading_statementOf start stmt ▸ hatRule⟩

/-- **The clause of a rule** that reads alone, if it has a selector. -/
theorem ReadsAlone.exists_rule {selector : String} {nodes : List Node} {layout : Layout}
    (h : (Node.rule selector nodes layout).ReadsAlone) (hne : selector ≠ "") :
    ∃ toks, IsClause toks (selector.toList ++ [' ']) '\x7b' ∧
      (statementOf 0 toks).heading = .rule selector := by
  obtain ⟨skips, stmt, rest, brackets, start, hsplit, houtline | hheading⟩ :=
    h.exists_isSplit (by simp [hollow]) (by simp [hollow, hne])
  · rcases Reader.Statement.cases_outline? houtline with ⟨_, _, _, -, hnode⟩ | ⟨_, _, hnode⟩ <;>
      cases hnode
  · have hwritten : ((Node.rule selector nodes layout).hollow.render 0 true).toList =
        selector.toList ++ [' '] ++ '\x7b' :: "\n\x7d".toList := by
      simp [hollow, render, renderNodes, toList_indentation]
    rw [hwritten] at hsplit
    have hrule : (statementOf start stmt).heading = .rule selector := by
      rcases Reader.Heading.cases_outline hheading with
        ⟨_, hrule, hnode⟩ | ⟨_, _, _, -, hnode⟩ <;> cases hnode
      exact hrule
    exact ⟨stmt, hsplit.isClause_rule hne isGap_space.isBlank (.inr (.inl rfl)) hrule,
      Reader.Statement.heading_statementOf start stmt ▸ hrule⟩

end Node

end Restyle.Css
