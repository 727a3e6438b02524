import Restyle.Css.Printer
import Restyle.Proofs.Css.Legible
import Restyle.Proofs.Text.BlankLines
import Restyle.Proofs.Text.Search

/-!
# White space between pieces

Finishing a text touches the white space in it and the break markers, and nothing else. To
say so, a text is taken apart into *pieces* with white space between them
(`Restyle.Css.Spaced`): the marks of the style sheet, its comments, and the words of its
statements. Each step of finishing leaves a text of the same pieces, up to break markers and
to blank lines in comments.

The one thing that needs an argument is that a break marker is nowhere but where there is one
in the tree. It would have to be in some piece, or to be cut between two of them; and behind a
cut there is white space that a mark follows or nothing, or the slash of a comment in front of it.
-/

namespace Restyle.Css

open Restyle.Text (isBlank trimEnd)

/-- What stands between the white space of a style sheet. -/
inductive Piece where
  /-- A semicolon or a brace. -/
  | mark (c : Char)
  | comment (text : List Char)
  /-- A statement, up to the mark that ends it. -/
  | words (text : List Char)

/-- A semicolon or a brace. -/
def IsMark (c : Char) : Prop := c = ';' ∨ c = '\x7b' ∨ c = '\x7d'

/-- Whether a text is nothing, or starts with a mark. -/
def StartsMark (cs : List Char) : Prop := ∀ c ∈ cs.head?, IsMark c

/-- What is behind the words of a statement: white space, and the mark that ends it, if it is not
the text that ends there. -/
def Ends (cs : List Char) : Prop :=
  ∃ blanks rest, cs = blanks ++ rest ∧ IsGap blanks ∧ StartsMark rest

namespace Piece

/-- The text of a piece. -/
def text : Piece → List Char
  | mark c => [c]
  | comment text => '/' :: '*' :: (text ++ ['*', '/'])
  | words text => text

/-- Whether a piece is read as what it is in front of a text. -/
inductive Stands : Piece → List Char → Prop
  | mark {c : Char} {cs : List Char} : IsMark c → Stands (.mark c) cs
  | comment {text cs : List Char} : ¬['*', '/'] <:+: text → Stands (.comment text) cs
  | words {text : List Char} {d : Char} {cs : List Char} :
      Reader.Readable text d → (∀ e ∈ cs.head?, e = d) →
        (Reader.statementOf 0 (Reader.spelling text)).IsPrinted → Ends cs → Stands (.words text) cs

/-- Whether a piece is a break marker. -/
def isMarker : Piece → Bool
  | comment text => text == breakMarkerText.toList
  | _ => false

/-- Whether finishing a text finds nothing to do in a piece, blank lines in comments apart. -/
def IsNeat : Piece → Prop
  | mark _ => True
  | comment text => text = breakMarkerText.toList ∨ ¬markerText <:+: (comment text).text
  | words text => Css.IsNeat text

/-- The piece without blank lines. -/
def collapse : Piece → Piece
  | comment text => comment (Text.collapseBlankLines text)
  | piece => piece

end Piece

/-- A text of pieces, with white space between them. -/
inductive Spaced : List Char → List Piece → Prop
  | nil : Spaced [] []
  | space {c : Char} {cs : List Char} {pieces : List Piece} :
      isSpace c → Spaced cs pieces → Spaced (c :: cs) pieces
  | piece {p : Piece} {cs : List Char} {pieces : List Piece} :
      p.Stands cs → Spaced cs pieces → Spaced (p.text ++ cs) (p :: pieces)

variable {p : Piece} {cs blanks : List Char} {pieces : List Piece}

/-- White space in front of a text changes nothing. -/
theorem Spaced.gap (hblanks : IsGap blanks) (h : Spaced cs pieces) :
    Spaced (blanks ++ cs) pieces := by
  induction blanks with
  | nil => exact h
  | cons c blanks ih =>
    exact .space (hblanks c List.mem_cons_self)
      (ih fun d hd => hblanks d (List.mem_cons_of_mem _ hd))

/-! ### The ends of a piece -/

theorem IsMark.not_isBlank {c : Char} (h : IsMark c) : ¬isBlank c := by
  rcases h with rfl | rfl | rfl <;> decide

theorem IsMark.not_isSpace {c : Char} (h : IsMark c) : ¬isSpace c :=
  mt isBlank_of_isSpace h.not_isBlank

theorem Piece.not_isBlank_of_head? (hstands : p.Stands cs) (hneat : p.IsNeat) :
    ∀ c ∈ p.text.head?, ¬isBlank c := by
  cases hstands with
  | mark hc => simpa [Piece.text] using hc.not_isBlank
  | comment =>
    rintro c ⟨⟩
    decide
  | words => exact hneat.first

theorem Piece.not_isBlank_of_getLast? (hstands : p.Stands cs) (hneat : p.IsNeat) :
    ∀ c ∈ p.text.getLast?, ¬isBlank c := by
  cases hstands with
  | mark hc => simpa [Piece.text] using hc.not_isBlank
  | @comment text =>
    intro c hc
    have hlast : (Piece.comment text).text.getLast? = some '/' := by
      rw [Piece.text, ← List.cons_append, ← List.cons_append, List.getLast?_append]
      rfl
    rw [hlast] at hc
    obtain rfl := Option.some.inj hc
    decide
  | words => exact hneat.last

theorem Piece.Stands.text_ne_nil (h : p.Stands cs) : p.text ≠ [] := by
  cases h with
  | mark => simp [Piece.text]
  | comment => simp [Piece.text]
  | words hreadable => exact hreadable.ne_nil

/-- What may follow words follows them in front of any text that starts and goes on in the same
way, or that ends there. -/
theorem Piece.Stands.of_ends {cs' : List Char} (h : p.Stands cs)
    (hends : Ends cs → Ends cs' ∧ ∀ c ∈ cs'.head?, c ∈ cs.head?) : p.Stands cs' := by
  cases h with
  | mark hc => exact .mark hc
  | comment htext => exact .comment htext
  | words hreadable hnext hprinted hend =>
    obtain ⟨hends, hhead⟩ := hends hend
    exact .words hreadable (fun c hc => hnext c (hhead c hc)) hprinted hends

/-! ### Break markers -/

theorem markerText_eq : markerText = ("/*" ++ breakMarkerText ++ "*/").toList := by decide

/-- Whether a text starts with what is neither white space nor a mark, or has that behind one
white space. -/
def startsFirm : List Char → Bool
  | ' ' :: c :: _ => !isInert c
  | c :: _ => !isInert c
  | [] => false

/-- Wherever a break marker is cut, it goes on with words. -/
theorem startsFirm_of_markerText_eq {front back : List Char} (h : markerText = front ++ back)
    (hne : back ≠ []) : startsFirm back := by
  have hall : ∀ back ∈ markerText.tails, back ≠ [] → startsFirm back := by decide
  exact hall back ((List.mem_tails back markerText).mpr ⟨front, h.symm⟩) hne

theorem IsMark.isInert {c : Char} (h : IsMark c) : Css.isInert c := by
  rcases h with rfl | rfl | rfl <;> rfl

/-- White space, and the mark behind it, start with what is inert. -/
theorem isInert_of_head? {rest : List Char} (hblanks : IsGap blanks) (hrest : StartsMark rest) :
    ∀ c ∈ (blanks ++ rest).head?, isInert c := by
  intro c hc
  cases blanks with
  | nil => exact (hrest c hc).isInert
  | cons e blanks =>
    obtain rfl := Option.some.inj hc
    simp [isInert, hblanks e List.mem_cons_self]

/-- A break marker does not go on where a statement ends. -/
theorem Ends.not_prefix {front back : List Char} (h : Ends cs)
    (hmarker : markerText = front ++ back)
    (hne : back ≠ []) : ¬back <+: cs := by
  have hfirm := startsFirm_of_markerText_eq hmarker hne
  obtain ⟨blanks, rest, rfl, hblanks, hrest⟩ := h
  rintro ⟨more, hmore⟩
  unfold startsFirm at hfirm
  split at hfirm
  · next f back =>
    -- the white space is not the mark, so what is behind it is white space or the mark
    cases blanks with
    | nil =>
      have hc := hrest ' ' (by rw [← List.nil_append rest, ← hmore]; rfl)
      rcases hc with hc | hc | hc <;> cases hc
    | cons e blanks =>
      have hbehind : f :: back ++ more = blanks ++ rest := (List.cons.inj hmore).2
      have hf := isInert_of_head? (fun c hc => hblanks c (List.mem_cons_of_mem e hc)) hrest f
        (by rw [← hbehind]; rfl)
      simp [hf] at hfirm
  · next c back _ =>
    have hc := isInert_of_head? hblanks hrest c (by rw [← hmore]; rfl)
    simp [hc] at hfirm
  · cases hfirm

/-- A piece in front of two texts is in front of the first, or goes on in the second. -/
theorem prefix_append_cases {piece front back : List Char} (h : piece <+: front ++ back) :
    piece <+: front ∨ ∃ more, piece = front ++ more ∧ more ≠ [] ∧ more <+: back := by
  obtain ⟨after, hafter⟩ := h
  rcases List.append_eq_append_iff.mp hafter with ⟨more, hfront, -⟩ | ⟨more, hpiece, hback⟩
  · exact .inl ⟨more, hfront.symm⟩
  · rcases List.eq_nil_or_concat more with rfl | ⟨init, c, rfl⟩
    · exact .inl (by simp [hpiece])
    · exact .inr ⟨_, hpiece, by simp, after, hback.symm⟩

/-- The slash that a comment ends with starts no break marker. -/
theorem Spaced.not_markerTail_prefix (h : Spaced cs pieces) (hneat : ∀ p ∈ pieces, p.IsNeat) :
    ¬markerTail <+: cs := by
  have hstar : markerTail = '*' :: markerTail.tail := by decide
  cases h with
  | nil =>
    rw [List.prefix_nil]
    exact hstar ▸ List.cons_ne_nil _ _
  | space hc =>
    rw [hstar, List.cons_prefix_cons]
    rintro ⟨rfl, -⟩
    exact absurd hc (by decide)
  | @piece p cs pieces hstands =>
    have hp : p.IsNeat := hneat p List.mem_cons_self
    cases hstands with
    | mark hc =>
      rw [Piece.text, List.singleton_append, hstar, List.cons_prefix_cons]
      rintro ⟨rfl, -⟩
      rcases hc with hc | hc | hc <;> cases hc
    | comment =>
      rw [Piece.text, List.cons_append, hstar, List.cons_prefix_cons]
      rintro ⟨hslash, -⟩
      cases hslash
    | @words text d cs _ _ _ hends =>
      intro hprefix
      rcases prefix_append_cases hprefix with hinside | ⟨more, hmore, hne, hbehind⟩
      · exact hp.unmarked hinside.isInfix
      · have hmarker : markerText = '/' :: text ++ more := congrArg (List.cons '/') hmore
        exact hends.not_prefix hmarker hne hbehind

/-- If a break marker starts with the end of a comment and goes on behind it, that end is no more
than the last slash of the comment. -/
theorem eq_slash_of_comment {text front back more : List Char}
    (htext : '/' :: '*' :: (text ++ ['*', '/']) = front ++ back) (hne : back ≠ [])
    (hmore : markerText = back ++ more) (hmorene : more ≠ []) : back = ['/'] := by
  have hclose : ∀ back ∈ markerText.inits, ['*', '/'] <:+ back → back = markerText := by decide
  have hback : back <:+ '/' :: '*' :: (text ++ ['*', '/']) := ⟨front, htext.symm⟩
  have hends : ['*', '/'] <:+ '/' :: '*' :: (text ++ ['*', '/']) := ⟨'/' :: '*' :: text, by simp⟩
  have hslash : ['/'] <:+ '/' :: '*' :: (text ++ ['*', '/']) := .trans ⟨['*'], rfl⟩ hends
  have hlength := List.length_pos_of_ne_nil hne
  by_cases hone : back.length = 1
  · exact ((List.suffix_of_suffix_length_le hslash hback hlength).eq_of_length hone.symm).symm
  · -- more of the comment closes it, as nothing in a break marker does but its own end
    have hlonger : ['*', '/'].length ≤ back.length := by
      rw [List.length_cons, List.length_singleton]
      omega
    have hwhole := hclose back ((List.mem_inits back markerText).mpr ⟨more, hmore.symm⟩)
      (List.suffix_of_suffix_length_le hends hback hlonger)
    rw [hwhole, List.self_eq_append_right] at hmore
    exact absurd hmore hmorene

/-- No break marker starts in a piece that is none. -/
theorem Spaced.not_markerText_prefix (h : Spaced cs pieces) (hneat : ∀ p ∈ pieces, p.IsNeat)
    (hstands : p.Stands cs) (hp : p.IsNeat) (hmarker : ¬p.isMarker) {front back : List Char}
    (htext : p.text = front ++ back) (hne : back ≠ []) : ¬markerText <+: back ++ cs := by
  intro hprefix
  rcases prefix_append_cases hprefix with hinside | ⟨more, hmore, hmorene, hbehind⟩
  · -- a marker inside the piece
    have hinfix : markerText <:+: p.text :=
      hinside.isInfix.trans (htext ▸ (List.suffix_append front back).isInfix)
    cases hstands with
    | mark hc =>
      have hlength : 1 < markerText.length := by decide
      exact absurd hinfix.length_le (Nat.not_le_of_lt hlength)
    | comment =>
      exact hp.elim (fun heq => hmarker (by simp [Piece.isMarker, heq])) fun hnot => hnot hinfix
    | words =>
      exact hp.unmarked ((List.suffix_cons '/' markerTail).isInfix.trans hinfix)
  · -- a marker that goes on behind the piece
    cases hstands with
    | @mark c _ hc =>
      have hslash : c ∈ markerText := by
        rw [hmore]
        refine List.mem_append_left _ ?_
        cases front with
        | nil => simp [← show [c] = back from htext]
        | cons e front => simp [Piece.text, hne] at htext
      rcases hc with rfl | rfl | rfl <;> exact absurd hslash (by decide)
    | comment =>
      have hslash := eq_slash_of_comment htext hne hmore hmorene
      obtain rfl : markerTail = more := by simpa [markerText, hslash] using hmore
      exact h.not_markerTail_prefix hneat hbehind
    | words _ _ _ hends => exact hends.not_prefix hmore hmorene hbehind

theorem removeAll_markerText_append {xs : List Char} (h : '/' ∉ xs) (cs : List Char) :
    Text.removeAll markerText (xs ++ cs) = xs ++ Text.removeAll markerText cs := by
  refine Text.removeAll_append cs fun front back hxs hne => ?_
  obtain ⟨c, back, rfl⟩ := List.exists_cons_of_ne_nil hne
  rw [List.cons_append, markerText, List.cons_prefix_cons]
  rintro ⟨rfl, -⟩
  exact h (by simp [hxs])

/-- No break marker is taken out where a mark is. -/
theorem StartsMark.head?_removeAll {rest : List Char} (h : StartsMark rest) :
    (Text.removeAll markerText rest).head? = rest.head? := by
  cases rest with
  | nil => rw [Text.removeAll]
  | cons c rest =>
    have hslash : '/' ∉ [c] := by
      rw [List.mem_singleton]
      rintro rfl
      rcases h '/' rfl with hc | hc | hc <;> cases hc
    rw [← List.singleton_append, removeAll_markerText_append hslash]
    rfl

theorem Ends.removeAll (h : Ends cs) :
    Ends (Text.removeAll markerText cs) ∧
      ∀ c ∈ (Text.removeAll markerText cs).head?, c ∈ cs.head? := by
  obtain ⟨blanks, rest, rfl, hblanks, hrest⟩ := h
  have hslash : '/' ∉ blanks := fun hmem => absurd (hblanks '/' hmem) (by decide)
  have hhead := hrest.head?_removeAll
  rw [removeAll_markerText_append hslash]
  refine ⟨⟨blanks, Text.removeAll markerText rest, rfl, hblanks, fun c hc => ?_⟩, fun c hc => ?_⟩
  · exact hrest c (hhead ▸ hc)
  · rwa [List.head?_append, hhead, ← List.head?_append] at hc

/-- **Taking out the break markers** leaves the other pieces. -/
theorem Spaced.removeAll (h : Spaced cs pieces) (hneat : ∀ p ∈ pieces, p.IsNeat) :
    Spaced (Text.removeAll markerText cs) (pieces.filter (!·.isMarker)) := by
  induction h with
  | nil =>
    rw [Text.removeAll]
    exact .nil
  | @space c cs pieces hc hspaced ih =>
    have hslash : '/' ∉ [c] := by
      rw [List.mem_singleton]
      rintro rfl
      exact absurd hc (by decide)
    rw [← List.singleton_append, removeAll_markerText_append hslash]
    exact .space hc (ih hneat)
  | @piece p cs pieces hstands hspaced ih =>
    obtain ⟨hp, hpieces⟩ := List.forall_mem_cons.mp hneat
    by_cases hmarker : p.isMarker
    · have htext : p.text = markerText := by
        cases p with
        | comment text =>
          rw [Piece.text, beq_iff_eq.mp hmarker]
          decide
        | _ => cases hmarker
      rw [htext, Text.removeAll_piece (by simp [markerText]), List.filter_cons_of_neg (by simpa)]
      exact ih hpieces
    · rw [Text.removeAll_append cs fun front back =>
          hspaced.not_markerText_prefix hpieces hstands hp hmarker,
        List.filter_cons_of_pos (by simpa using hmarker)]
      exact .piece (hstands.of_ends Ends.removeAll) (ih hpieces)

/-- And where there are none, nothing is taken out. -/
theorem Spaced.removeAll_eq_self (h : Spaced cs pieces) (hneat : ∀ p ∈ pieces, p.IsNeat)
    (hmarker : ∀ p ∈ pieces, ¬p.isMarker) : Text.removeAll markerText cs = cs := by
  induction h with
  | nil => rw [Text.removeAll]
  | @space c cs pieces hc hspaced ih =>
    have hslash : '/' ∉ [c] := by
      rw [List.mem_singleton]
      rintro rfl
      exact absurd hc (by decide)
    rw [← List.singleton_append, removeAll_markerText_append hslash, ih hneat hmarker]
  | @piece p cs pieces hstands hspaced ih =>
    obtain ⟨hp, hpieces⟩ := List.forall_mem_cons.mp hneat
    obtain ⟨hnot, hmarker⟩ := List.forall_mem_cons.mp hmarker
    rw [Text.removeAll_append cs fun front back =>
      hspaced.not_markerText_prefix hpieces hstands hp hnot, ih hpieces hmarker]

/-! ### Blank lines -/

theorem Piece.text_collapse (hstands : p.Stands cs) (hneat : p.IsNeat) :
    Text.collapseBlankLines p.text = p.collapse.text := by
  cases hstands with
  | mark hc =>
    refine Text.collapseBlankLines_of_notMem ?_
    rcases hc with rfl | rfl | rfl <;> decide
  | @comment text =>
    have hclose := Text.collapseBlankLines_append_cons (c := '*') (by decide) text ['/']
    have hopen := Text.collapseBlankLines_append_cons (c := '*') (by decide) ['/']
      (text ++ ['*', '/'])
    have hslash : Text.collapseBlankLines ['/'] = ['/'] :=
      Text.collapseBlankLines_of_notMem (by decide)
    rw [hslash] at hclose hopen
    rw [hclose] at hopen
    exact hopen
  | words => exact hneat.collapsed

theorem Ends.collapse (h : Ends cs) : Ends (Text.collapseBlankLines cs) ∧
    ∀ c ∈ (Text.collapseBlankLines cs).head?, c ∈ cs.head? := by
  refine ⟨?_, fun c hc => Text.head?_collapseBlankLines cs ▸ hc⟩
  obtain ⟨blanks, rest, rfl, hblanks, hrest⟩ := h
  have hblank : ∀ c ∈ rest.head?, ¬isBlank c := fun c hc => (hrest c hc).not_isBlank
  refine ⟨Text.collapseBlankLines blanks, Text.collapseBlankLines rest,
    Text.collapseBlankLines_append_of_head? _ hblank _,
    fun d hd => hblanks d (Text.mem_of_mem_collapseBlankLines hd), fun c hc => ?_⟩
  exact hrest c (Text.head?_collapseBlankLines rest ▸ hc)

theorem Piece.Stands.collapse (h : p.Stands cs) :
    p.collapse.Stands (Text.collapseBlankLines cs) := by
  cases h with
  | mark hc => exact .mark hc
  | comment htext =>
    exact .comment fun hinfix =>
      htext (Text.infix_of_infix_collapseBlankLines (by decide) (by rintro _ ⟨⟩; decide) hinfix)
  | words hreadable hnext hprinted hends =>
    exact (Piece.Stands.words hreadable hnext hprinted hends).of_ends Ends.collapse

/-- A break marker is not made of a comment. -/
theorem Piece.markerText_infix_of_collapse {text : List Char}
    (h : markerText <:+: (Piece.comment (Text.collapseBlankLines text)).text) :
    markerText <:+: (Piece.comment text).text := by
  have hopen := Text.collapseBlankLines_append_cons (c := '*') (by decide) ['/']
    (text ++ ['*', '/'])
  have hclose := Text.collapseBlankLines_append_cons (c := '*') (by decide) text ['/']
  have hslash : Text.collapseBlankLines ['/'] = ['/'] :=
    Text.collapseBlankLines_of_notMem (by decide)
  rw [hslash] at hclose hopen
  rw [hclose] at hopen
  refine Text.infix_of_infix_collapseBlankLines (by decide) (by rintro _ ⟨⟩; decide) ?_
  rw [Piece.text] at h
  exact hopen ▸ h

theorem Piece.IsNeat.collapse (h : p.IsNeat) : p.collapse.IsNeat := by
  cases p with
  | comment text =>
    rcases h with rfl | h
    · left
      exact Text.collapseBlankLines_of_notMem (by decide)
    · exact .inr fun hinfix => h (Piece.markerText_infix_of_collapse hinfix)
  | _ => exact h

theorem Piece.not_isMarker_collapse (hneat : p.IsNeat) (hmarker : ¬p.isMarker) :
    ¬p.collapse.isMarker := by
  cases p with
  | comment text =>
    have hnot : ¬markerText <:+: (Piece.comment text).text :=
      hneat.resolve_left fun heq => hmarker (by simp [Piece.isMarker, heq])
    intro hcollapsed
    refine hnot (Piece.markerText_infix_of_collapse ?_)
    rw [beq_iff_eq.mp hcollapsed]
    exact ⟨[], [], by decide⟩
  | _ => exact hmarker

theorem Spaced.collapse_append (h : Spaced cs pieces) (hneat : ∀ p ∈ pieces, p.IsNeat)
    (blanks : List Char) (hblanks : IsGap blanks) :
    Spaced (Text.collapseBlankLines (blanks ++ cs)) (pieces.map Piece.collapse) := by
  have hgap {blanks : List Char} (h : IsGap blanks) : IsGap (Text.collapseBlankLines blanks) :=
    fun c hc => h c (Text.mem_of_mem_collapseBlankLines hc)
  -- a run of blank lines may be on both sides of where the induction cuts it
  induction h generalizing blanks with
  | nil =>
    rw [List.append_nil, ← List.append_nil (Text.collapseBlankLines blanks)]
    exact Spaced.gap (hgap hblanks) .nil
  | @space c cs pieces hc hspaced ih =>
    rw [List.append_cons blanks c cs]
    refine ih hneat _ fun d hd => ?_
    rcases List.mem_append.mp hd with hd | hd
    · exact hblanks d hd
    · rwa [List.mem_singleton.mp hd]
  | @piece p cs pieces hstands hspaced ih =>
    have hp : p.IsNeat := hneat p List.mem_cons_self
    have hhead : ∀ c ∈ (p.text ++ cs).head?, ¬isBlank c := by
      rw [List.head?_append_of_ne_nil _ hstands.text_ne_nil]
      exact Piece.not_isBlank_of_head? hstands hp
    rw [Text.collapseBlankLines_append_of_head? _ hhead,
      Text.collapseBlankLines_append_of_getLast? _ (Piece.not_isBlank_of_getLast? hstands hp),
      Piece.text_collapse hstands hp]
    refine Spaced.gap (hgap hblanks) (.piece hstands.collapse ?_)
    exact ih (fun q hq => hneat q (List.mem_cons_of_mem _ hq)) [] (by simp [IsGap])

/-- **Collapsing blank lines** leaves the pieces, up to blank lines in comments. -/
theorem Spaced.collapse (h : Spaced cs pieces) (hneat : ∀ p ∈ pieces, p.IsNeat) :
    Spaced (Text.collapseBlankLines cs) (pieces.map Piece.collapse) :=
  h.collapse_append hneat [] (by simp [IsGap])

/-! ### The end -/

theorem Spaced.eq_nil_of_isBlank (h : Spaced cs pieces) (hneat : ∀ p ∈ pieces, p.IsNeat)
    (hblank : ∀ c ∈ cs, isBlank c) : pieces = [] := by
  induction h with
  | nil => rfl
  | space hc hspaced ih => exact ih hneat fun d hd => hblank d (List.mem_cons_of_mem _ hd)
  | @piece p cs pieces hstands hspaced ih =>
    obtain ⟨c, rest, htext⟩ := List.exists_cons_of_ne_nil hstands.text_ne_nil
    refine absurd (hblank c (by simp [htext])) ?_
    exact Piece.not_isBlank_of_head? hstands (hneat p List.mem_cons_self) c (by simp [htext])

theorem Ends.trimEnd (h : Ends cs) :
    Ends (Text.trimEnd cs) ∧ ∀ c ∈ (Text.trimEnd cs).head?, c ∈ cs.head? := by
  obtain ⟨blanks, rest, rfl, hblanks, hrest⟩ := h
  cases rest with
  | nil =>
    have hnil : Text.trimEnd (blanks ++ []) = [] :=
      List.rdropWhile_eq_nil_iff.mpr fun c hc => isBlank_of_isSpace (hblanks c (by simpa using hc))
    rw [hnil]
    exact ⟨⟨[], [], rfl, by simp [IsGap], by simp [StartsMark]⟩, by simp⟩
  | cons c rest =>
    have hc : IsMark c := hrest c rfl
    rw [Text.trimEnd_append_cons hc.not_isBlank]
    refine ⟨⟨blanks, c :: Text.trimEnd rest, rfl, hblanks, by simpa [StartsMark] using hc⟩, ?_⟩
    cases blanks <;> simp

/-- **Dropping the blanks at the end** leaves the pieces. -/
theorem Spaced.trimEnd (h : Spaced cs pieces) (hneat : ∀ p ∈ pieces, p.IsNeat) :
    Spaced (trimEnd cs) pieces := by
  induction h with
  | nil => exact .nil
  | @space c cs pieces hc hspaced ih =>
    have hrest := ih hneat
    by_cases hblank : ∀ d ∈ cs, isBlank d
    · have hnil : Text.trimEnd (c :: cs) = [] := by
        refine List.rdropWhile_eq_nil_iff.mpr fun d hd => ?_
        rcases List.mem_cons.mp hd with rfl | hd
        · exact isBlank_of_isSpace hc
        · exact hblank d hd
      rw [hnil, hspaced.eq_nil_of_isBlank hneat hblank]
      exact .nil
    · simp only [not_forall] at hblank
      obtain ⟨d, hd, hnot⟩ := hblank
      obtain ⟨xs, ys, rfl⟩ := List.append_of_mem hd
      rw [Text.trimEnd_append_cons hnot] at hrest
      rw [← List.cons_append, Text.trimEnd_append_cons hnot]
      exact .space hc hrest
  | @piece p cs pieces hstands hspaced ih =>
    obtain ⟨hp, hpieces⟩ := List.forall_mem_cons.mp hneat
    obtain ⟨init, e, htext⟩ : ∃ init e, p.text = init ++ [e] :=
      ⟨_, _, (List.dropLast_append_getLast hstands.text_ne_nil).symm⟩
    have he : ¬isBlank e :=
      Piece.not_isBlank_of_getLast? hstands hp e (by simp [htext])
    have htrim : Text.trimEnd (p.text ++ cs) = p.text ++ Text.trimEnd cs := by
      rw [htext, List.append_assoc, List.singleton_append, Text.trimEnd_append_cons he,
        List.append_assoc, List.singleton_append]
    rw [htrim]
    exact .piece (hstands.of_ends Ends.trimEnd) (ih hpieces)

end Restyle.Css
