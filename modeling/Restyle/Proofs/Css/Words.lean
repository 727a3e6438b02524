import Restyle.Proofs.Css.Sketch

/-!
# The words of a statement

Between its white space, a statement is one piece: its words. Where the texts of a node are
legible, so are its words, and what is read from them is the node again: a declaration is cut
at its colon (`Restyle.Css.IsPropertyCut.isWords`), and an at-rule and a selector are what
their headings say.
-/

namespace Restyle.Css

open Restyle.Text (isBlank trimStart trimEnd)

/-- Words that are read in front of a character as a statement that makes a node. -/
structure IsWords (text : List Char) (d : Char) (outlined : Node) : Prop where
  readable : Reader.Readable text d
  outline : (Reader.statementOf 0 (Reader.spelling text)).outline? = some outlined
  printed : (Reader.statementOf 0 (Reader.spelling text)).IsPrinted

/-! ### What may follow -/

/-- What follows the white space in a slot may stand in its place. -/
theorem Follows.exists_cons {read : Option String} {d : Char} (h : Follows read d)
    {default : String} (hread : IsFillerSlot read) (hdefault : IsGap default.toList)
    {c : Char} (hc : isInert c) (hmark : ¬isSpace c) (rest : List Char) :
    ∃ d' more, (read.getD default).toList ++ c :: rest = d' :: more ∧ isInert d' ∧
      (isSpace d' → isSpace d) := by
  have hfiller : IsFiller (read.getD default).toList := by
    cases read with
    | none => exact fun e he => .inl (hdefault e he)
    | some s => exact hread s rfl
  cases htext : (read.getD default).toList with
  | nil => exact ⟨c, rest, rfl, hc, fun hspace => absurd hspace hmark⟩
  | cons e more =>
    have he := hfiller e (by simp [htext])
    refine ⟨e, more ++ c :: rest, rfl, ?_, fun hspace => h.space ?_⟩
    · rcases he with he | rfl
      · simp [isInert, he]
      · rfl
    · rintro rfl
      simp at htext

theorem IsGapSlot.isFillerSlot {read : Option String} (h : IsGapSlot read) : IsFillerSlot read :=
  fun s hs c hc => .inl (h s hs c hc)

/-! ### Spellings -/

/-- Tokens that are no white space at the end spell a statement, if they begin one. -/
theorem Cuts.isSpelling {toks : List Token} {cs : List Char} {d : Char} (h : Cuts toks cs d)
    (hbegins : ∃ token rest, toks = token :: rest ∧ Reader.beginsStatement token.kind)
    (hbalanced : toks.foldlM Reader.advance [] = some [])
    (hlast : ∀ c ∈ cs.getLast?, ¬isSpace c) : Reader.IsSpelling toks := by
  obtain ⟨front, back, hsplit, hfront, hback, -⟩ :=
    Reader.exists_spelling hbegins h.closed hbalanced
  rcases List.eq_nil_or_concat back with rfl | ⟨init, token, rfl⟩
  · rw [List.append_nil] at hsplit
    exact hsplit ▸ hfront
  · -- the last token is white space, and its last character ends the text
    exfalso
    rw [List.concat_eq_append] at hsplit hback
    have hkind := hback token (by simp)
    have hfits := h.fits token (by simp [hsplit])
    rw [Token.Fits, hkind] at hfits
    obtain ⟨hne, hspace⟩ := hfits
    obtain ⟨init', c, htext⟩ : ∃ init' c, token.text = init' ++ [c] :=
      ⟨_, _, (List.dropLast_append_getLast hne).symm⟩
    refine hlast c ?_ (hspace c (by simp [htext]))
    rw [← h.text, hsplit]
    simp [htext]

/-! ### Declarations -/

/-- The tokens of a declaration: those in front of the colon, the colon, and those behind. -/
theorem cuts_declaration {front toks : List Token} {cs gap value : List Char} {d : Char}
    (hfront : Cuts front cs ':') (hvalue : Cuts toks value d) (hgap : IsGap gap)
    (hfirst : ∀ c ∈ (value ++ [d]).head?, gap = [] ∨ ¬isSpace c) :
    ∃ space, (∀ token ∈ space, token.kind = .space) ∧
      Cuts (front ++ ⟨.colon, [':']⟩ :: (space ++ toks)) (cs ++ ':' :: (gap ++ value)) d := by
  have hcolon : Token.IsClosed ⟨.colon, [':']⟩ := ⟨rfl, rfl⟩
  cases gap with
  | nil =>
    refine ⟨[], by simp, ?_, ?_, hvalue.inert, fun r => ?_⟩
    · simp [hfront.text, hvalue.text]
    · intro token htoken
      simp only [List.nil_append, List.mem_append, List.mem_cons] at htoken
      rcases htoken with htoken | rfl | htoken
      · exact hfront.closed token htoken
      · exact hcolon
      · exact hvalue.closed token htoken
    · rw [List.append_assoc, List.cons_append, hfront.tokens, tokens_mark rfl, List.nil_append,
        hvalue.tokens]
      simp
  | cons c gap =>
    -- the white space is a token of its own, since the value starts with none
    have hspace : Token.IsClosed ⟨.space, c :: gap⟩ := ⟨rfl, rfl⟩
    refine ⟨[⟨.space, c :: gap⟩], by simp, ?_, ?_, hvalue.inert, fun r => ?_⟩
    · simp [hfront.text, hvalue.text]
    · intro token htoken
      simp only [List.singleton_append, List.mem_append, List.mem_cons] at htoken
      rcases htoken with htoken | rfl | rfl | htoken
      · exact hfront.closed token htoken
      · exact hcolon
      · exact hspace
      · exact hvalue.closed token htoken
    · have hhead : ∀ e ∈ (value ++ d :: r).head?, ¬isSpace e := by
        intro e he
        have hsame : (value ++ d :: r).head? = (value ++ [d]).head? := by cases value <;> rfl
        exact (hfirst e (hsame ▸ he)).resolve_left (List.cons_ne_nil _ _)
      rw [List.append_assoc, List.cons_append, hfront.tokens, tokens_mark rfl, List.append_assoc,
        List.cons_append, tokens_space (hgap c List.mem_cons_self) gap _
          (fun e he => hgap e (List.mem_cons_of_mem _ he)) hhead, hvalue.tokens]
      simp

/-- White space leaves no bracket open, and closes none. -/
theorem foldlM_advance_space {space : List Token} (h : ∀ token ∈ space, token.kind = .space) :
    space.foldlM Reader.advance [] = some [] := by
  induction space with
  | nil => rfl
  | cons token space ih =>
    have hkind := h token List.mem_cons_self
    have hadvance : Reader.advance [] token = some [] := by
      simp [Reader.advance, hkind, Reader.closerOf?]
    rw [List.foldlM_cons, hadvance]
    exact ih fun other hother => h other (List.mem_cons_of_mem _ hother)

/-- A property in front of a colon: its tokens, and the white space around the colon. -/
structure IsPropertyCut (front : List Token) (property gap gap' : List Char) : Prop where
  trimmed : IsTrimmed property
  isGap : IsGap gap
  isGap' : IsGap gap'
  cuts : Cuts front (property ++ gap) ':'
  balanced : front.foldlM Reader.advance [] = some []
  colon : (Reader.statementOf 0 front).colon = none
  begins : ∀ token ∈ front.head?, Reader.beginsStatement token.kind ∧ token.kind ≠ .atKeyword

theorem IsPropertyText.exists_cut {property between : String}
    (h : IsPropertyText property between) :
    ∃ front gap gap', between.toList = gap ++ ':' :: gap' ∧
      IsPropertyCut front property.toList gap gap' := by
  obtain ⟨htrimmed, front, gap, gap', hbetween, hgap, hgap', hfront, hbalanced, hnone, hbegins⟩ := h
  exact ⟨front, gap, gap', hbetween, htrimmed, hgap, hgap', hfront, hbalanced, hnone, hbegins⟩

/-- Blanks around the colon that belong to nothing end nothing. -/
theorem last_declaration {property gap gap' value : List Char} (hnil : value = [] → gap' = []) :
    ∀ c ∈ (property ++ gap ++ ':' :: (gap' ++ value)).getLast?, c = ':' ∨ c ∈ value.getLast? := by
  intro c hc
  rcases List.eq_nil_or_concat value with rfl | ⟨init, e, rfl⟩
  · rw [hnil rfl] at hc
    exact .inl (by simpa using hc.symm)
  · right
    simpa [List.getLast?_append, List.getLast?_cons] using hc

namespace IsPropertyCut

variable {front toks : List Token} {property gap gap' value : List Char} {d : Char}
  (h : IsPropertyCut front property gap gap')

include h

/-- No white space is in front of a property. -/
theorem gap_eq_nil (hproperty : property = []) : gap = [] := by
  have hcuts := h.cuts
  rw [hproperty, List.nil_append] at hcuts
  cases gap with
  | nil => rfl
  | cons c gap =>
    exfalso
    have htokens := hcuts.tokens []
    rw [List.cons_append, tokens_space (h.isGap c List.mem_cons_self) gap _
      (fun e he => h.isGap e (List.mem_cons_of_mem _ he)) (by rintro e ⟨⟩; decide)] at htokens
    cases front with
    | nil => exact absurd hcuts.text (by simp)
    | cons token front =>
      have hkind := (h.begins token rfl).1
      rw [List.cons_append] at htokens
      rw [← (List.cons.inj htokens).1] at hkind
      cases hkind

theorem collapsed (htame : isTameColon (gap ++ ':' :: gap')) :
    Text.collapseBlankLines gap = gap ∧ Text.collapseBlankLines gap' = gap' := by
  obtain ⟨-, -, hboth⟩ := gaps_of_isTameColon htame
    (fun hmem => absurd (h.isGap _ hmem) (by decide))
    (fun hmem => absurd (h.isGap' _ hmem) (by decide))
  exact hboth

/-- The first token is the colon if there is no other in front of it. -/
theorem exists_first (back : List Token) :
    ∃ token rest, front ++ ⟨.colon, [':']⟩ :: back = token :: rest ∧
      Reader.beginsStatement token.kind ∧ token.kind ≠ .atKeyword := by
  cases front with
  | nil => exact ⟨_, _, rfl, rfl, by simp⟩
  | cons token front => exact ⟨token, _, rfl, h.begins token rfl⟩

/-- White space behind the colon, and what has all its brackets closed, open none. -/
theorem foldlM_advance {space : List Token} (hspace : ∀ token ∈ space, token.kind = .space)
    (hbalanced : toks.foldlM Reader.advance [] = some []) :
    (front ++ ⟨.colon, [':']⟩ :: (space ++ toks)).foldlM Reader.advance [] = some [] := by
  have hcolon : Reader.advance [] ⟨.colon, [':']⟩ = some [] := rfl
  rw [List.foldlM_append, h.balanced, Option.bind_eq_bind, Option.bind_some, List.foldlM_cons,
    hcolon, Option.bind_eq_bind, Option.bind_some, List.foldlM_append, foldlM_advance_space hspace]
  exact hbalanced

/-- **A statement that is cut at a colon is a declaration.** -/
theorem isWords (hvalue : Cuts toks value d) (hbalanced : toks.foldlM Reader.advance [] = some [])
    (htrimmed : IsTrimmed value) (hends : isSpace d → EndsClosed value)
    (hnil : value = [] → gap' = []) :
    IsWords (property ++ gap ++ ':' :: (gap' ++ value)) d
      (.declaration (String.ofList property) (String.ofList value) {}) := by
  have hfirst : ∀ c ∈ (value ++ [d]).head?, gap' = [] ∨ ¬isSpace c := by
    intro c hc
    cases value with
    | nil => exact .inl (hnil rfl)
    | cons e value => exact .inr fun hspace => htrimmed.first c hc (isBlank_of_isSpace hspace)
  obtain ⟨space, hspace, hcuts⟩ := cuts_declaration h.cuts hvalue h.isGap' hfirst
  obtain ⟨token, rest, hcons, hkind, hkeyword⟩ := h.exists_first (space ++ toks)
  have hlast : ∀ c ∈ (property ++ gap ++ ':' :: (gap' ++ value)).getLast?, ¬isSpace c := by
    intro c hc hspace
    rcases last_declaration hnil c hc with rfl | hc
    · exact absurd hspace (by decide)
    · exact htrimmed.last c hc (isBlank_of_isSpace hspace)
  have hclosed : isSpace d → EndsClosed (property ++ gap ++ ':' :: (gap' ++ value)) := by
    intro hspace c hc
    rcases last_declaration hnil c hc with rfl | hc
    · exact ⟨by decide, by decide, by decide⟩
    · exact hends hspace c hc
  have hspelled := hcuts.isSpelling ⟨token, rest, hcons, hkind⟩ (h.foldlM_advance hspace hbalanced)
    hlast
  obtain ⟨hreadable, hspelling⟩ := Reader.Readable.of_cuts hcuts hspelled hclosed
  -- the statement has no keyword, and the colon that was found is the first one outside brackets
  obtain ⟨htext, -, -⟩ := hspelled.statementOf_eq 0
  have hcolon := Reader.colon_statementOf h.balanced h.colon ⟨.colon, [':']⟩ rfl (space ++ toks)
  have hword : (Reader.statementOf 0 (front ++ ⟨.colon, [':']⟩ :: (space ++ toks))).keyword =
      none := by
    have hne : token.text ≠ [] := (hcuts.fits token (by simp [hcons])).ne_nil
    rw [hcons, Reader.keyword_statementOf hne hkind, if_neg hkeyword]
  rw [hcuts.text] at htext
  rw [h.cuts.text] at hcolon
  have hproperty := Text.trimEnd_append_blanks h.trimmed.last
    (fun c hc => isBlank_of_isSpace (h.isGap c hc))
  have htrim := Text.trimStart_blanks_append (fun c hc => isBlank_of_isSpace (h.isGap' c hc))
    htrimmed.first
  refine ⟨hreadable, ?_, ?_⟩
  · rw [hspelling]
    simp only [Reader.Statement.outline?, Reader.Statement.heading, hword, hcolon, htext,
      Option.map_some]
    rw [List.take_left, hproperty, ← List.drop_drop, List.drop_left, List.drop_one,
      List.tail_cons, htrim]
  · rw [hspelling]
    intro name afterName params hheading
    simp [Reader.Statement.heading, hword] at hheading

/-- The words of a declaration are neat if its texts are. -/
theorem isNeat (hproperty : IsNeat property) (hvalue : IsNeat value)
    (hcollapsed : Text.collapseBlankLines gap = gap)
    (hcollapsed' : Text.collapseBlankLines gap' = gap') (hnil : value = [] → gap' = []) :
    IsNeat (property ++ gap ++ ':' :: (gap' ++ value)) := by
  have hcolon : ¬isBlank ':' := by decide
  have hspace {blanks : List Char} (h : IsGap blanks) {c : Char} (hc : ¬isSpace c) : c ∉ blanks :=
    fun hmem => hc (h c hmem)
  refine ⟨⟨?_, ?_⟩, ?_, ?_, ?_⟩
  · -- without a property, the colon is the first character
    intro c hc
    cases property with
    | nil =>
      rw [h.gap_eq_nil rfl] at hc
      obtain rfl := Option.some.inj hc
      exact hcolon
    | cons d property => exact hproperty.first c hc
  · intro c hc
    rcases last_declaration hnil c hc with rfl | hc
    · exact hcolon
    · exact hvalue.last c hc
  · rw [Text.collapseBlankLines_append_cons hcolon,
      Text.collapseBlankLines_append_of_getLast? property hproperty.last,
      Text.collapseBlankLines_append_of_head? value hvalue.first, hproperty.collapsed,
      hvalue.collapsed, hcollapsed, hcollapsed']
  · -- a break marker has no colon and no white space next to one in it
    intro hinfix
    rcases Text.infix_or_of_infix_append_cons (by decide) hinfix with hinfix | hinfix
    · refine hproperty.unmarked (Text.infix_of_infix_append_right ?_ hinfix)
      rintro _ ⟨⟩
      exact hspace h.isGap (by decide)
    · refine hvalue.unmarked (Text.infix_of_infix_append_left ?_ hinfix)
      rintro _ ⟨⟩
      exact hspace h.isGap' (by decide)
  · intro c hc
    rcases last_declaration hnil c hc with rfl | hc
    · exact ⟨by decide, by decide⟩
    · exact hvalue.closed c hc

end IsPropertyCut

/-- **A legible declaration is its words, and white space.** -/
theorem IsPropertyText.exists_words {property between : String}
    (h : IsPropertyText property between) (value : String) :
    ∃ words blanks, (property ++ between ++ value).toList = words ++ blanks ∧ IsGap blanks ∧
      (∀ {d}, IsValueText value d → ∀ r, ∀ e ∈ (blanks ++ d :: r).head?,
        IsWords words e (.declaration property value {})) ∧
      (isNeat property.toList → isNeat value.toList → isTameColon between.toList →
        IsNeat words) := by
  obtain ⟨front, gap, gap', hbetween, hcut⟩ := h.exists_cut
  rw [hbetween, isNeat_iff, isNeat_iff]
  by_cases hempty : value.toList = []
  · -- what is behind the colon follows the words
    obtain rfl : value = "" := String.toList_inj.mp hempty
    have hcut' : IsPropertyCut front property.toList gap [] :=
      { hcut with isGap' := by simp [IsGap] }
    refine ⟨property.toList ++ gap ++ ':' :: ([] ++ []), gap', ?_, hcut.isGap', ?_, ?_⟩
    · simp [hbetween]
    · rintro d ⟨htrimmed, -, _, htoks, -⟩ r e he
      obtain ⟨r', hr'⟩ := List.head?_eq_some_iff.mp he
      have hnil : Cuts [] [] e :=
        ⟨rfl, by simp, (follows_of_gap hcut.isGap' htoks.inert hr').inert, fun _ => rfl⟩
      have hwords := hcut'.isWords hnil rfl htrimmed (by simp [EndsClosed]) fun _ => rfl
      rwa [String.ofList_toList] at hwords
    · intro hproperty hvalue hcolon
      exact hcut'.isNeat hproperty hvalue (hcut.collapsed hcolon).1
        (Text.collapseBlankLines_of_notMem (by simp)) fun _ => rfl
  · -- a value ends the words, and nothing follows them
    refine ⟨property.toList ++ gap ++ ':' :: (gap' ++ value.toList), [], ?_,
      by simp [IsGap], ?_, ?_⟩
    · simp [hbetween]
    · rintro d ⟨htrimmed, hends, toks, htoks, hbalanced⟩ r e he
      obtain rfl := Option.some.inj he
      have hwords := hcut.isWords htoks hbalanced htrimmed hends fun hnil => absurd hnil hempty
      rwa [String.ofList_toList, String.ofList_toList] at hwords
    · intro hproperty hvalue hcolon
      obtain ⟨hcollapsed, hcollapsed'⟩ := hcut.collapsed hcolon
      exact hcut.isNeat hproperty hvalue hcollapsed hcollapsed' fun hnil => absurd hnil hempty

end Restyle.Css
