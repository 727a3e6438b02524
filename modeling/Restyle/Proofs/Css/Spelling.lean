import Mathlib.Data.List.Induction
import Restyle.Proofs.Css.Lookahead
import Restyle.Proofs.Css.Verbatim

/-!
# How a statement is spelled

What the reader makes of the tokens of a statement does not depend on the statements around
it: the brackets that are open (`Restyle.Css.Reader.advance`) and the statement so far
(`Restyle.Css.Reader.Statement.next`) depend on the tokens alone. So a text that was read as
a statement once is read as one wherever it is cut into the same tokens, and
`Restyle.Css.tokens_giveWay` says where it is.

The tokens of a statement's text are those in front of a semicolon
(`Restyle.Css.Reader.spelling`). A text that is cut into them in front of some other
character, and is a statement by them, is `Restyle.Css.Reader.Readable` there.
-/

namespace Restyle.Css

/-- A token that is closed, if it is one that has to be. -/
def Token.IsClosed (token : Token) : Prop :=
  token.isUnclosedString = false ∧ token.isUnclosedComment = false

theorem Token.IsClosed.kind_ne {token : Token} (h : token.IsClosed) :
    token.kind ≠ .brokenString := by
  intro hkind
  simp [Token.IsClosed, Token.isUnclosedString, hkind] at h

/-! ### Cutting a text into tokens -/

/-- A text is cut into tokens in front of a character, whatever follows that. -/
structure Cuts (toks : List Token) (cs : List Char) (d : Char) : Prop where
  text : toks.flatMap Token.text = cs
  closed : ∀ token ∈ toks, token.IsClosed
  inert : isInert d
  tokens : ∀ r, Css.tokens (cs ++ d :: r) = toks ++ Css.tokens (d :: r)

theorem Cuts.fits {toks : List Token} {cs : List Char} {d : Char} (h : Cuts toks cs d) :
    ∀ token ∈ toks, token.Fits := fun token htoken =>
  fits_of_mem_tokens (cs ++ d :: []) (by rw [h.tokens]; exact List.mem_append_left _ htoken)

/-- A text that is cut into tokens in one place is so in front of that character. -/
theorem Cuts.of_tokens {toks : List Token} {cs : List Char} {d : Char} {r : List Char}
    (htext : toks.flatMap Token.text = cs) (hclosed : ∀ token ∈ toks, token.IsClosed)
    (hinert : isInert d) (hends : isSpace d → EndsClosed cs)
    (htokens : Css.tokens (cs ++ d :: r) = toks ++ Css.tokens (d :: r)) : Cuts toks cs d where
  text := htext
  closed := hclosed
  inert := hinert
  tokens _ := tokens_giveWay (fun token htoken => (hclosed token htoken).kind_ne) htext
    ⟨hinert, startsInert_cons.mpr hinert, by simp, hends⟩ htokens

/-- And in front of what may stand there instead. -/
theorem Cuts.tokens_append {toks : List Token} {cs ds : List Char} {d : Char} (h : Cuts toks cs d)
    (hway : GivesWay cs d ds) : Css.tokens (cs ++ ds) = toks ++ Css.tokens ds :=
  tokens_giveWay (r := []) (fun token htoken => (h.closed token htoken).kind_ne) h.text hway
    (h.tokens [])

theorem Cuts.giveWay {toks : List Token} {cs : List Char} {d d' : Char} (h : Cuts toks cs d)
    (hd' : isInert d') (hspace : isSpace d' → isSpace d) (hends : isSpace d → EndsClosed cs) :
    Cuts toks cs d' where
  text := h.text
  closed := h.closed
  inert := hd'
  tokens _ := h.tokens_append ⟨h.inert, startsInert_cons.mpr hd', by simpa using hspace, hends⟩

/-- Behind the tokens in front, the tokens of the rest. -/
theorem tokens_of_append {toks ys : List Token} {cs : List Char}
    (h : tokens (toks.flatMap Token.text ++ cs) = toks ++ ys) : tokens cs = ys := by
  induction toks with
  | nil => exact h
  | cons token toks ih =>
    cases htext : (token :: toks).flatMap Token.text ++ cs with
    | nil =>
      rw [htext, tokens] at h
      cases h
    | cons c rest =>
      rw [htext, tokens_cons, List.cons_append] at h
      obtain ⟨rfl, hrest⟩ := List.cons.inj h
      refine ih ?_
      rw [← hrest]
      have hdrop : (rest.take (scan c rest).2) ++ (toks.flatMap Token.text ++ cs) = rest := by
        rw [List.flatMap_cons, List.append_assoc, List.cons_append] at htext
        exact (List.cons.inj htext).2
      have hsplit := hdrop.trans (List.take_append_drop (scan c rest).2 rest).symm
      exact congrArg tokens (List.append_cancel_left hsplit)

/-! ### Single tokens -/

/-- A mark is a token by itself. -/
theorem tokens_mark {c : Char} {kind : Kind} (h : markKind? c = some kind) (rest : List Char) :
    tokens (c :: rest) = ⟨kind, [c]⟩ :: tokens rest := by
  have hspace : isSpace c = false := by
    by_contra hspace
    simp only [Bool.not_eq_false, isSpace, Bool.or_eq_true, beq_iff_eq] at hspace
    rcases hspace with (((rfl | rfl) | rfl) | rfl) | rfl <;> simp [markKind?] at h
  have hquote : ¬(c = '"' ∨ c = '\'') := by rintro (rfl | rfl) <;> simp [markKind?] at h
  have hscan : scan c rest = (kind, 0) := by simp [scan, hspace, hquote, h]
  rw [tokens_cons, hscan]
  rfl

/-- White space is one token, up to what is none. -/
theorem tokens_space {c : Char} (hc : isSpace c) (gap rest : List Char)
    (hgap : ∀ e ∈ gap, isSpace e) (hrest : ∀ e ∈ rest.head?, ¬isSpace e) :
    tokens (c :: (gap ++ rest)) = ⟨.space, c :: gap⟩ :: tokens rest := by
  have hrun : (gap ++ rest).takeWhile isSpace = gap := by
    rw [List.takeWhile_append_of_pos hgap]
    cases rest with
    | nil => simp
    | cons e rest => rw [List.takeWhile_cons_of_neg (hrest e rfl), List.append_nil]
  have hscan : scan c (gap ++ rest) = (.space, gap.length) := by simp [scan, hc, hrun]
  rw [tokens_cons, hscan]
  simp

namespace Reader

/-! ### The tokens of a statement -/

/-- The marks that close what is open behind a token of a statement. There are none if the
token ends the statement. -/
def advance (brackets : List Kind) (token : Token) : Option (List Kind) :=
  match brackets with
  | closer :: outer =>
    some (if token.kind = closer then outer
      else match closerOf? token.kind with
        | some inner => inner :: closer :: outer
        | none => closer :: outer)
  | [] =>
    if token.kind = .semicolon ∨ token.kind = .openCurly ∨ token.kind = .closeCurly then none
    else some (closerOf? token.kind).toList

/-- A statement with one more token. -/
def Statement.next (statement : Statement) (token : Token) : Statement :=
  match statement.brackets with
  | closer :: outer => statement.addInside closer outer token
  | [] =>
    if token.kind = .space then { statement with gap := statement.gap ++ token.text }
    else statement.add token

/-- The statement that tokens make, the first of them behind `start` characters. -/
def statementOf (start : Nat) (toks : List Token) : Statement :=
  toks.foldl Statement.next { start }

/-- Whether a token begins a statement where there is none. -/
def beginsStatement : Kind → Bool
  | .space | .semicolon | .comment | .openCurly | .closeCurly => false
  | _ => true

theorem brackets_next {statement : Statement} {token : Token} {brackets : List Kind}
    (h : advance statement.brackets token = some brackets) :
    (statement.next token).brackets = brackets := by
  unfold advance at h
  unfold Statement.next
  split at h
  · next closer outer hopen =>
    cases h
    rfl
  · next hopen =>
    split_ifs at h with hends
    cases h
    split_ifs with hspace
    · simp [hspace, closerOf?, hopen]
    · rfl

/-- **A token of a statement adds to it**, whatever is around it. -/
theorem step_of_advance {state : State} {statement : Statement} {token : Token}
    {brackets : List Kind} (hstatement : state.statement = some statement)
    (hclosed : token.IsClosed) (h : advance statement.brackets token = some brackets) :
    step state token = .ok { state with
      statement := some (statement.next token), offset := state.offset + token.text.length } := by
  refine step_eq_ok.mpr ⟨hclosed.1, hclosed.2,
    { state with statement := some (statement.next token) }, ?_, rfl⟩
  rw [hstatement]
  unfold advance at h
  unfold Statement.next State.inside
  split at h
  · next closer outer hopen => simp [hopen]
  · next hopen =>
    split_ifs at h with hends
    simp only [not_or] at hends
    simp only [hopen]
    split <;> simp_all

theorem isClosed_of_step {state next : State} {token : Token} (h : step state token = .ok next) :
    token.IsClosed := by
  obtain ⟨hstring, hcomment, -⟩ := step_eq_ok.mp h
  exact ⟨hstring, hcomment⟩

/-- The first token of a statement begins it. -/
theorem step_of_beginsStatement {state : State} {token : Token}
    (hstatement : state.statement = none) (hclosed : token.IsClosed)
    (h : beginsStatement token.kind) :
    step state token = .ok { state with
      statement := some (Statement.next { start := state.offset } token)
      offset := state.offset + token.text.length } := by
  refine step_eq_ok.mpr ⟨hclosed.1, hclosed.2,
    { state with statement := some (Statement.next { start := state.offset } token) }, ?_, rfl⟩
  rw [hstatement]
  have hspace : token.kind ≠ .space := by
    intro hspace
    simp [hspace, beginsStatement] at h
  simp only [State.between, Statement.next, if_neg hspace]
  split <;> simp_all [beginsStatement]

/-- More tokens of a statement. -/
theorem steps_of_advance {toks : List Token} {state : State} {statement : Statement}
    {brackets : List Kind} (hstatement : state.statement = some statement)
    (hclosed : ∀ token ∈ toks, token.IsClosed)
    (h : toks.foldlM advance statement.brackets = some brackets) :
    toks.foldlM step state = .ok { state with
      statement := some (toks.foldl Statement.next statement)
      offset := state.offset + (toks.flatMap Token.text).length } := by
  induction toks generalizing state statement with
  | nil =>
    rw [List.foldlM_nil, List.foldl_nil, ← hstatement]
    rfl
  | cons token toks ih =>
    rw [List.foldlM_cons] at h
    obtain ⟨middle, hmiddle, h⟩ := Option.bind_eq_some_iff.mp h
    rw [← brackets_next hmiddle] at h
    rw [List.foldlM_cons, step_of_advance hstatement (hclosed _ List.mem_cons_self) hmiddle]
    refine (ih rfl (fun other hother => hclosed other (List.mem_cons_of_mem _ hother)) h).trans ?_
    simp [Nat.add_assoc]

/-! ### The statement that tokens make -/

theorem statementOf_append_singleton (start : Nat) (toks : List Token) (token : Token) :
    statementOf start (toks ++ [token]) = (statementOf start toks).next token := by
  rw [statementOf, List.foldl_append]
  rfl

/-- Tokens whose brackets have been followed, and one more. -/
theorem foldlM_advance_append_singleton {toks : List Token} {token : Token}
    {brackets : List Kind} :
    (toks ++ [token]).foldlM advance [] = some brackets ↔
      ∃ middle, toks.foldlM advance [] = some middle ∧ advance middle token = some brackets := by
  rw [List.foldlM_append]
  simp [Option.bind_eq_some_iff]

theorem next_start (statement : Statement) (token : Token) (start : Nat) :
    ({ statement with start } : Statement).next token = { statement.next token with start } := by
  obtain ⟨_, text, gap, keyword, colon, brackets⟩ := statement
  cases brackets with
  | cons closer outer => rfl
  | nil =>
    simp only [Statement.next]
    split_ifs <;> rfl

/-- Where a statement starts does not matter for what it is. -/
theorem statementOf_start (start other : Nat) (toks : List Token) :
    statementOf start toks = { statementOf other toks with start } := by
  induction toks using List.reverseRecOn with
  | nil => rfl
  | append_singleton toks token ih =>
    rw [statementOf_append_singleton, statementOf_append_singleton, ih, next_start]

theorem start_statementOf (start : Nat) (toks : List Token) :
    (statementOf start toks).start = start := by
  rw [statementOf_start start 0]

/-- What is known of the statement that tokens make: the brackets that are open, that there
is no gap behind an open bracket, and its text. -/
theorem statementOf_spec {toks : List Token} {brackets : List Kind}
    (h : toks.foldlM advance [] = some brackets) (start : Nat) :
    (statementOf start toks).brackets = brackets ∧
      (brackets ≠ [] → (statementOf start toks).gap = []) ∧
      (statementOf start toks).text ++ (statementOf start toks).gap =
        toks.flatMap Token.text := by
  induction toks using List.reverseRecOn generalizing brackets with
  | nil =>
    cases h
    exact ⟨rfl, fun hne => absurd rfl hne, rfl⟩
  | append_singleton toks token ih =>
    obtain ⟨middle, hmiddle, hlast⟩ := foldlM_advance_append_singleton.mp h
    obtain ⟨hbrackets, hgap, htext⟩ := ih hmiddle
    rw [← hbrackets] at hlast
    rw [statementOf_append_singleton]
    refine ⟨brackets_next hlast, ?_, ?_⟩
    · -- white space opens nothing, and whatever else there is leaves no gap
      intro hne
      unfold Statement.next
      split
      · next closer outer hopen =>
        rw [hbrackets] at hopen
        simp [Statement.addInside, hgap (by simp [hopen])]
      · next hopen =>
        split_ifs with hspace
        · rw [hopen] at hlast
          simp [advance, hspace, closerOf?, eq_comm, hne] at hlast
        · rfl
    · unfold Statement.next
      split
      · next closer outer hopen =>
        rw [hbrackets] at hopen
        rw [hgap (by simp [hopen]), List.append_nil] at htext
        simp [Statement.addInside, hgap (by simp [hopen]), htext]
      · split_ifs
        · simp [← htext]
        · simp [Statement.add, ← htext]

/-- **Tokens that spell a statement**: they begin one, all of them are closed and so are
their brackets, and the last one is no white space. -/
structure IsSpelling (toks : List Token) : Prop where
  begins : ∃ token rest, toks = token :: rest ∧ beginsStatement token.kind
  closed : ∀ token ∈ toks, token.IsClosed
  balanced : toks.foldlM advance [] = some []
  gap : (statementOf 0 toks).gap = []

/-- What a spelling makes of a statement: its text is all there is. -/
theorem IsSpelling.statementOf_eq {toks : List Token} (h : IsSpelling toks) (start : Nat) :
    (statementOf start toks).text = toks.flatMap Token.text ∧
      (statementOf start toks).gap = [] ∧ (statementOf start toks).brackets = [] := by
  obtain ⟨hbrackets, -, htext⟩ := statementOf_spec h.balanced start
  have hgap : (statementOf start toks).gap = [] := by
    rw [statementOf_start start 0]
    exact h.gap
  rw [hgap, List.append_nil] at htext
  exact ⟨htext, hgap, hbrackets⟩

/-- **The tokens of a statement are read as one** where there is none, complete or not. -/
theorem steps_of_begins {toks : List Token} {brackets : List Kind}
    (hbegins : ∃ token rest, toks = token :: rest ∧ beginsStatement token.kind)
    (hclosed : ∀ token ∈ toks, token.IsClosed) (h : toks.foldlM advance [] = some brackets)
    {state : State} (hstatement : state.statement = none) :
    toks.foldlM step state = .ok { state with
      statement := some (statementOf state.offset toks)
      offset := state.offset + (toks.flatMap Token.text).length } := by
  obtain ⟨token, rest, rfl, hbegins⟩ := hbegins
  rw [List.foldlM_cons] at h
  obtain ⟨middle, hmiddle, hrest⟩ := Option.bind_eq_some_iff.mp h
  have hbrackets : (Statement.next { start := state.offset } token).brackets = middle :=
    brackets_next hmiddle
  rw [← hbrackets] at hrest
  rw [List.foldlM_cons,
    step_of_beginsStatement hstatement (hclosed _ List.mem_cons_self) hbegins]
  refine (steps_of_advance rfl
    (fun other hother => hclosed other (List.mem_cons_of_mem _ hother)) hrest).trans ?_
  simp [statementOf, Nat.add_assoc]

theorem IsSpelling.steps {toks : List Token} (h : IsSpelling toks) {state : State}
    (hstatement : state.statement = none) :
    toks.foldlM step state = .ok { state with
      statement := some (statementOf state.offset toks)
      offset := state.offset + (toks.flatMap Token.text).length } :=
  steps_of_begins h.begins h.closed h.balanced hstatement

/-- White space begins no statement, so what stands in front of it does. -/
theorem begins_of_append_space {toks : List Token} {token : Token}
    (hbegins : ∃ first rest, toks ++ [token] = first :: rest ∧ beginsStatement first.kind)
    (hspace : token.kind = .space) :
    ∃ first rest, toks = first :: rest ∧ beginsStatement first.kind := by
  obtain ⟨first, rest, h, hfirst⟩ := hbegins
  cases toks with
  | nil =>
    obtain ⟨rfl, -⟩ := List.cons.inj h
    simp [hspace, beginsStatement] at hfirst
  | cons other toks =>
    obtain ⟨rfl, -⟩ := List.cons.inj h
    exact ⟨_, toks, rfl, hfirst⟩

/-- Only white space outside brackets leaves a gap. -/
theorem gap_append_singleton {toks : List Token} {token : Token} {middle : List Kind}
    (hmiddle : toks.foldlM advance [] = some middle) (h : ¬(middle = [] ∧ token.kind = .space))
    (start : Nat) : (statementOf start (toks ++ [token])).gap = [] := by
  obtain ⟨hbrackets, hgap, -⟩ := statementOf_spec hmiddle start
  rw [statementOf_append_singleton, Statement.next, hbrackets]
  cases middle with
  | nil =>
    have hspace : token.kind ≠ .space := fun hspace => h ⟨rfl, hspace⟩
    simp [hspace, Statement.add]
  | cons closer outer => simp [Statement.addInside, hgap]

/-- **The tokens of a statement that is complete**: a spelling, and the white space behind
it. -/
theorem exists_spelling {toks : List Token}
    (hbegins : ∃ token rest, toks = token :: rest ∧ beginsStatement token.kind)
    (hclosed : ∀ token ∈ toks, token.IsClosed) (hbalanced : toks.foldlM advance [] = some []) :
    ∃ front back, toks = front ++ back ∧ IsSpelling front ∧
      (∀ token ∈ back, token.kind = .space) ∧
      ∀ start, statementOf start toks =
        { statementOf start front with gap := back.flatMap Token.text } := by
  induction toks using List.reverseRecOn with
  | nil =>
    obtain ⟨token, rest, h, -⟩ := hbegins
    cases h
  | append_singleton toks token ih =>
    obtain ⟨middle, hmiddle, hlast⟩ := foldlM_advance_append_singleton.mp hbalanced
    by_cases hspace : middle = [] ∧ token.kind = .space
    · -- white space outside brackets is behind what is spelled in front of it
      obtain ⟨rfl, hspace⟩ := hspace
      obtain ⟨front, back, rfl, hfront, hback, hof⟩ := ih (begins_of_append_space hbegins hspace)
        (fun other hother => hclosed other (List.mem_append_left _ hother)) hmiddle
      refine ⟨front, back ++ [token], by simp, hfront, ?_, fun start => ?_⟩
      · intro other hother
        rcases List.mem_append.mp hother with hother | hother
        · exact hback other hother
        · rw [List.mem_singleton.mp hother, hspace]
      · rw [statementOf_append_singleton, Statement.next]
        simp [if_pos hspace, hof start, (hfront.statementOf_eq start).2.2]
    · -- after anything else there is no gap, and all the tokens are the spelling
      have hgap := gap_append_singleton hmiddle hspace
      refine ⟨toks ++ [token], [], by simp, ⟨hbegins, hclosed, hbalanced, hgap 0⟩, by simp, ?_⟩
      intro start
      rw [List.flatMap_nil, ← hgap start]

/-! ### Keyword and colon -/

/-- A keyword is in front of a statement or nowhere. -/
theorem keyword_foldl {toks : List Token} {statement : Statement}
    (h : statement.text ++ statement.gap ≠ []) :
    (toks.foldl Statement.next statement).keyword = statement.keyword := by
  induction toks generalizing statement with
  | nil => rfl
  | cons token toks ih =>
    have hnext : (statement.next token).text ++ (statement.next token).gap ≠ [] ∧
        (statement.next token).keyword = statement.keyword := by
      unfold Statement.next
      split
      · refine ⟨?_, rfl⟩
        simp only [Statement.addInside]
        simp_all
      · split_ifs
        · exact ⟨by simp_all, rfl⟩
        · refine ⟨by simp_all [Statement.add], ?_⟩
          simp only [Statement.add]
          rw [if_neg]
          rintro ⟨-, hempty⟩
          exact h (List.isEmpty_iff.mp hempty)
    rw [List.foldl_cons, ih hnext.1, hnext.2]

/-- The keyword of a statement is its first token. -/
theorem keyword_statementOf {token : Token} (htext : token.text ≠ [])
    (hbegins : beginsStatement token.kind) (start : Nat) (toks : List Token) :
    (statementOf start (token :: toks)).keyword =
      if token.kind = .atKeyword then some token.text.length else none := by
  have hspace : token.kind ≠ .space := by
    intro hspace
    simp [hspace, beginsStatement] at hbegins
  rw [statementOf, List.foldl_cons, keyword_foldl]
  · simp [Statement.next, hspace, Statement.add]
  · simp [Statement.next, hspace, Statement.add, htext]

/-- The first colon stays the first one. -/
theorem colon_foldl {toks : List Token} {statement : Statement} {n : Nat}
    (h : statement.colon = some n) :
    (toks.foldl Statement.next statement).colon = some n := by
  induction toks generalizing statement with
  | nil => exact h
  | cons token toks ih =>
    refine ih ?_
    unfold Statement.next
    split
    · exact h
    · split_ifs
      · exact h
      · simp [Statement.add, h]

/-- The colon of a statement is the first one outside brackets. -/
theorem colon_statementOf {front : List Token} (hfront : front.foldlM advance [] = some [])
    {start : Nat} (hnone : (statementOf start front).colon = none) (token : Token)
    (hcolon : token.kind = .colon) (back : List Token) :
    (statementOf start (front ++ token :: back)).colon =
      some (front.flatMap Token.text).length := by
  obtain ⟨hbrackets, -, htext⟩ := statementOf_spec hfront start
  rw [statementOf, List.foldl_append, List.foldl_cons, ← statementOf]
  refine colon_foldl ?_
  rw [Statement.next]
  simp only [hbrackets, hcolon]
  simp [Statement.add, hcolon, hnone, ← htext]

/-- **A statement with a colon**: the tokens in front of it, and those behind. -/
theorem exists_colon {toks : List Token} {brackets : List Kind}
    (hbalanced : toks.foldlM advance [] = some brackets) {start n : Nat}
    (h : (statementOf start toks).colon = some n) :
    ∃ front token back, toks = front ++ token :: back ∧ token.kind = .colon ∧
      front.foldlM advance [] = some [] ∧ (statementOf start front).colon = none ∧
      n = (front.flatMap Token.text).length := by
  induction toks using List.reverseRecOn generalizing brackets with
  | nil => cases h
  | append_singleton toks token ih =>
    obtain ⟨middle, hmiddle, hlast⟩ := foldlM_advance_append_singleton.mp hbalanced
    -- the first colon was there before the last token, or it is that token
    cases hcolon : (statementOf start toks).colon with
    | some m =>
      rw [statementOf, List.foldl_append, ← statementOf, colon_foldl hcolon] at h
      obtain ⟨front, other, back, rfl, hrest⟩ := ih hmiddle (hcolon.trans h)
      exact ⟨front, other, back ++ [token], by simp, hrest⟩
    | none =>
      obtain ⟨hbrackets, -, htext⟩ := statementOf_spec hmiddle start
      rw [statementOf_append_singleton, Statement.next] at h
      cases middle with
      | cons closer outer =>
        simp only [hbrackets, Statement.addInside, hcolon] at h
        cases h
      | nil =>
        simp only [hbrackets] at h
        split_ifs at h with hspace
        · rw [hcolon] at h
          cases h
        · simp only [Statement.add, hcolon] at h
          split_ifs at h with hkind
          cases h
          exact ⟨toks, token, [], by simp, hkind.1, hmiddle, hcolon, by rw [htext]⟩

/-! ### Texts that are read as statements -/

/-- The tokens of the text of a statement: those in front of a semicolon. -/
def spelling (cs : List Char) : List Token :=
  (tokens (cs ++ [';'])).dropLast

/-- **A text that is read as a statement** in front of a character. -/
structure Readable (cs : List Char) (d : Char) : Prop where
  cuts : Cuts (spelling cs) cs d
  spelled : IsSpelling (spelling cs)
  ends : isSpace d → EndsClosed cs

theorem spelling_eq_of_cuts {toks : List Token} {cs : List Char} {d : Char} (h : Cuts toks cs d)
    (hends : isSpace d → EndsClosed cs) : spelling cs = toks := by
  have hsemicolon : isInert ';' := by decide
  have hway := h.giveWay hsemicolon (fun hspace => absurd hspace (by decide)) hends
  rw [spelling, hway.tokens [], tokens_mark rfl, tokens, List.dropLast_concat]

theorem Readable.of_cuts {toks : List Token} {cs : List Char} {d : Char} (h : Cuts toks cs d)
    (hspelled : IsSpelling toks) (hends : isSpace d → EndsClosed cs) :
    Readable cs d ∧ spelling cs = toks := by
  have heq := spelling_eq_of_cuts h hends
  exact ⟨⟨heq ▸ h, heq ▸ hspelled, hends⟩, heq⟩

/-- What is read in front of white space is read in front of a mark, and what is read in
front of a mark is so in front of another. -/
theorem Readable.giveWay {cs : List Char} {d d' : Char} (h : Readable cs d) (hd' : isInert d')
    (hspace : isSpace d' → isSpace d) : Readable cs d' where
  cuts := h.cuts.giveWay hd' hspace h.ends
  spelled := h.spelled
  ends hd := h.ends (hspace hd)

/-- And so it is at the end of a text. -/
theorem Readable.tokens_append {cs ds : List Char} {d : Char} (h : Readable cs d)
    (hds : ∀ e ∈ ds.head?, e = d) : tokens (cs ++ ds) = spelling cs ++ tokens ds := by
  refine h.cuts.tokens_append ⟨h.cuts.inert, fun e he => ?_, fun e he => ?_, h.ends⟩
  · rw [hds e he]
    exact h.cuts.inert
  · rw [hds e he]
    exact id

theorem Readable.ne_nil {cs : List Char} {d : Char} (h : Readable cs d) : cs ≠ [] := by
  rintro rfl
  obtain ⟨token, rest, hcons, -⟩ := h.spelled.begins
  have htext := h.cuts.text
  rw [hcons, List.flatMap_cons, List.append_eq_nil_iff] at htext
  exact (h.cuts.fits token (by simp [hcons])).ne_nil htext.1

end Reader

end Restyle.Css
