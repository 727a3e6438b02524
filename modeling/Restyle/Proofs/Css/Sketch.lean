import Mathlib.Data.List.Forall2
import Restyle.Proofs.Css.Outline
import Restyle.Proofs.Css.Spacing

/-!
# Reading pieces

What a text is read as depends on its pieces alone, up to layout. `Restyle.Css.Reader.Sketch`
is the state of a reader that knows nothing but the pieces and keeps nothing but outlines, and
`Restyle.Css.Reader.steps_of_spaced` says that the reader of a text goes along with it: by
one case for each kind of piece, and one for white space, which changes nothing in the
sketch.
-/

namespace Restyle.Css

/-! ### Tokens of a piece -/

theorem commentLength_append {text : List Char} (h : ¬['*', '/'] <:+: text) (rest : List Char) :
    commentLength (text ++ '*' :: '/' :: rest) = text.length + 2 := by
  induction text with
  | nil => rfl
  | cons c text ih =>
    rw [List.infix_cons_iff, not_or] at h
    have hopen : ¬(c = '*' ∧ (text ++ '*' :: '/' :: rest).head? = some '/') := by
      rintro ⟨rfl, hhead⟩
      cases text with
      | nil => simp at hhead
      | cons d text =>
        obtain rfl : d = '/' := by simpa using hhead
        exact h.1 (by simp)
    rw [List.cons_append, commentLength_cons, if_neg hopen, ih h.2, List.length_cons]
    omega

/-- A comment is one token. -/
theorem tokens_comment {text : List Char} (h : ¬['*', '/'] <:+: text) (rest : List Char) :
    tokens ((Piece.comment text).text ++ rest) =
      ⟨.comment, (Piece.comment text).text⟩ :: tokens rest := by
  have htext : (Piece.comment text).text ++ rest =
      '/' :: '*' :: (text ++ '*' :: '/' :: rest) := by simp [Piece.text]
  have hscan : scan '/' ('*' :: (text ++ '*' :: '/' :: rest)) =
      (.comment, 1 + (text.length + 2)) := by
    rw [← commentLength_append h rest]
    simp [scan, isSpace, markKind?, slashLength]
  rw [htext, tokens_cons, hscan]
  have hlength : 1 + (text.length + 2) = (text.length + 2) + 1 := by omega
  have htake : (text ++ '*' :: '/' :: rest).take (text.length + 2) = text ++ ['*', '/'] := by
    rw [List.take_length_add_append]
    rfl
  have hdrop : (text ++ '*' :: '/' :: rest).drop (text.length + 2) = rest := by
    rw [List.drop_length_add_append]
    rfl
  simp only [hlength, List.take_succ_cons, List.drop_succ_cons, htake, hdrop, Piece.text]

namespace Reader

/-! ### Sketches -/

/-- **The state of a reader of pieces.** -/
structure Sketch where
  /-- The outline of what is in the open container. -/
  nodes : List Node := []
  /-- The bodies that are open, each with the outline of what is in front of it. -/
  outer : List (Heading × List Node) := []
  /-- The statement that has begun. -/
  statement : Option Statement := none

/-- The outline of the node that a body makes. -/
def Heading.outline (nodes : List Node) : Heading → Node
  | .rule selector => .rule selector nodes {}
  | .atRule name _ params => .block name params nodes {}

/-- The outline of the node that a finished statement without a body makes. -/
def Statement.outline? (statement : Statement) : Option Node :=
  match statement.heading with
  | .atRule name _ params => some (.statement name params {})
  | .rule _ => statement.colon.map fun colon =>
    let text := statement.text
    .declaration (String.ofList (Text.trimEnd (text.take colon)))
      (String.ofList (Text.trimStart (text.drop (colon + 1)))) {}

namespace Sketch

/-- Finishes the statement that has begun. -/
def settle (k : Sketch) : Option Sketch :=
  match k.statement with
  | none => some k
  | some statement => statement.outline?.map fun node =>
    { k with nodes := k.nodes ++ [node], statement := none }

/-- Opens a body. -/
def openBody (k : Sketch) : Sketch :=
  { nodes := []
    outer := ((k.statement.getD { start := 0 }).heading, k.nodes) :: k.outer
    statement := none }

/-- Closes the open body. -/
def closeBody (k : Sketch) : Option Sketch :=
  match k.outer with
  | [] => none
  | (heading, nodes) :: outer =>
    some { nodes := nodes ++ [heading.outline k.nodes], outer, statement := none }

/-- Reads one piece. -/
def step (comments : Bool) (k : Sketch) : Piece → Option Sketch
  | .mark c =>
    if c = ';' then k.settle
    else if c = '\x7b' then some k.openBody
    else k.settle.bind closeBody
  | .comment text =>
    if k.statement.isSome then none
    else some { k with
      nodes := k.nodes ++ (Node.comment (String.ofList text) {}).outline comments }
  | .words text =>
    if k.statement.isSome then none
    else some { k with statement := some (statementOf 0 (spelling text)) }

end Sketch

/-- A statement as it is known to a sketch: without its place, and the white space behind. -/
def Statement.plain (statement : Statement) : Statement :=
  { statement with start := 0, gap := [] }

/-- A container that is open, and the outline of it. -/
structure Frame.IsSketched (comments : Bool) (frame : Frame) (nodes : List Node) : Prop where
  nodes : Css.outline comments frame.nodes = nodes
  lost : lostNodes frame.nodes = 0

/-- A body that is open, and the outline of it. -/
structure Opening.IsSketched (comments : Bool) (opening : Opening × Frame)
    (outer : Heading × List Node) : Prop where
  heading : opening.1.heading = outer.1
  printed : ∀ name afterName params, outer.1 = .atRule name afterName params →
    params = "" → afterName = ""
  frame : opening.2.IsSketched comments outer.2

/-- **A state and a sketch of it.** -/
structure State.IsSketched (comments : Bool) (state : State) (k : Sketch) : Prop where
  frame : state.frame.IsSketched comments k.nodes
  outer : List.Forall₂ (Opening.IsSketched comments) state.outer k.outer
  statement : state.statement.map Statement.plain = k.statement
  balanced : ∀ statement ∈ k.statement, statement.brackets = [] ∧ statement.IsPrinted

variable {comments : Bool} {state : State} {k k' : Sketch}

theorem State.IsSketched.initial : State.IsSketched comments {} {} where
  frame := ⟨rfl, rfl⟩
  outer := .nil
  statement := rfl
  balanced := by simp

/-! ### White space -/

/-- What white space does. -/
def State.addSpace (state : State) (blanks : List Char) : State :=
  { state with
    offset := state.offset + blanks.length
    before := if state.statement.isSome then state.before else state.before ++ blanks
    statement := state.statement.map fun statement =>
      { statement with gap := statement.gap ++ blanks } }

theorem State.IsSketched.brackets (h : state.IsSketched comments k) {statement : Statement}
    (hstatement : state.statement = some statement) : statement.brackets = [] := by
  have hk := h.statement
  rw [hstatement] at hk
  exact (h.balanced _ hk.symm).1

theorem State.IsSketched.addSpace (h : state.IsSketched comments k) (blanks : List Char) :
    (state.addSpace blanks).IsSketched comments k where
  frame := h.frame
  outer := h.outer
  statement := by
    rw [← h.statement, State.addSpace, Option.map_map]
    rfl
  balanced := h.balanced

/-- Outside brackets white space changes nothing. -/
theorem step_space (h : ∀ statement ∈ state.statement, statement.brackets = [])
    (blanks : List Char) : step state ⟨.space, blanks⟩ = .ok (state.addSpace blanks) := by
  rw [step_eq_ok]
  refine ⟨rfl, rfl, { state.addSpace blanks with offset := state.offset }, ?_, rfl⟩
  cases hstatement : state.statement with
  | none => simp [State.between, State.addSpace, hstatement]
  | some statement =>
    simp [State.inside, State.addSpace, hstatement, h statement hstatement]

theorem State.brackets_addSpace (h : ∀ statement ∈ state.statement, statement.brackets = [])
    (blanks : List Char) :
    ∀ statement ∈ (state.addSpace blanks).statement, statement.brackets = [] := by
  intro statement hstatement
  obtain ⟨statement, hmem, rfl⟩ := Option.map_eq_some_iff.mp hstatement
  exact h statement hmem

theorem State.addSpace_append (state : State) (blanks blanks' : List Char) :
    (state.addSpace blanks).addSpace blanks' = state.addSpace (blanks ++ blanks') := by
  cases hstatement : state.statement <;> simp [State.addSpace, hstatement, Nat.add_assoc]

/-- **White space is read one character at a time** as well. -/
theorem steps_cons_space (h : ∀ statement ∈ state.statement, statement.brackets = []) {c : Char}
    (hc : isSpace c) (cs : List Char) :
    (tokens (c :: cs)).foldlM step state = (tokens cs).foldlM step (state.addSpace [c]) := by
  have hsplit : cs = cs.takeWhile isSpace ++ cs.dropWhile isSpace :=
    List.takeWhile_append_dropWhile.symm
  have hrest : ∀ e ∈ (cs.dropWhile isSpace).head?, ¬isSpace e := by
    intro e he
    have hnot := List.head?_dropWhile_not isSpace cs
    rw [Option.mem_def.mp he] at hnot
    simpa using hnot
  have hblanks : ∀ e ∈ cs.takeWhile isSpace, isSpace e := fun e he => List.mem_takeWhile_imp he
  rw [hsplit, tokens_space hc _ _ hblanks hrest, List.foldlM_cons, step_space h]
  cases hrun : cs.takeWhile isSpace with
  | nil => rfl
  | cons e blanks =>
    rw [hrun] at hblanks
    rw [List.cons_append, tokens_space (hblanks e List.mem_cons_self) _ _
      (fun d hd => hblanks d (List.mem_cons_of_mem _ hd)) hrest, List.foldlM_cons,
      step_space (State.brackets_addSpace h [c]), State.addSpace_append]
    rfl

/-! ### Finished statements -/

theorem Statement.heading_plain (statement : Statement) :
    statement.plain.heading = statement.heading := rfl

theorem Statement.plain_eq_self {statement : Statement} (hstart : statement.start = 0)
    (hgap : statement.gap = []) : statement.plain = statement := by
  obtain ⟨start, text, gap, keyword, colon, brackets⟩ := statement
  simp_all [Statement.plain]

theorem Statement.outline?_plain (statement : Statement) :
    statement.plain.outline? = statement.outline? := rfl

/-- A statement makes a node of its outline, whatever is around it, and all of it is
printed. -/
theorem nodeOf_of_outline? (comments : Bool) {statement : Statement} {outlined : Node}
    (h : statement.outline? = some outlined) (before trailing : List Char) :
    ∃ node, nodeOf before statement trailing = .ok node ∧
      node.outline comments = [outlined] ∧ (statement.IsPrinted → node.lost = 0) := by
  unfold Statement.outline? Statement.heading at h
  unfold Statement.IsPrinted Statement.heading
  unfold nodeOf
  cases hkeyword : statement.keyword with
  | some length =>
    simp only [hkeyword, Option.some.injEq] at h ⊢
    refine ⟨_, rfl, by rw [← h]; rfl, fun hprinted => ?_⟩
    by_cases hparams : (splitKeyword statement.text length).2.2 = ""
    · have hafter := hprinted _ _ _ rfl hparams
      simp [Node.lost, hafter]
    · simp [Node.lost, hparams]
  | none =>
    simp only [hkeyword, Option.map_eq_some_iff] at h ⊢
    obtain ⟨colon, hcolon, rfl⟩ := h
    rw [hcolon]
    exact ⟨_, rfl, rfl, fun _ => rfl⟩

theorem lostNodes_append (xs ys : List Node) :
    lostNodes (xs ++ ys) = lostNodes xs + lostNodes ys := by
  induction xs with
  | nil => simp [lostNodes]
  | cons x xs ih => simp [lostNodes, ih, Nat.add_assoc]

theorem Frame.IsSketched.push {frame : Frame} {nodes outlined : List Node} {node : Node}
    (h : frame.IsSketched comments nodes) (hnode : node.outline comments = outlined)
    (hlost : node.lost = 0) (semicolon : Bool) :
    Frame.IsSketched comments { nodes := frame.nodes ++ [node], semicolon }
      (nodes ++ outlined) where
  nodes := by rw [outline_append, h.nodes, outline_singleton, hnode]
  lost := by simp [lostNodes_append, h.lost, lostNodes, hlost]

/-- The statement that has begun, in the state and in the sketch. -/
theorem State.IsSketched.exists_statement (h : state.IsSketched comments k)
    {plain : Statement} (hplain : k.statement = some plain) :
    ∃ statement, state.statement = some statement ∧ statement.plain = plain ∧
      statement.brackets = [] ∧ statement.IsPrinted := by
  have hk := h.statement
  rw [hplain, Option.map_eq_some_iff] at hk
  obtain ⟨statement, hstatement, rfl⟩ := hk
  obtain ⟨hbrackets, hprinted⟩ := h.balanced statement.plain hplain
  exact ⟨statement, hstatement, rfl, hbrackets, hprinted⟩

theorem State.IsSketched.statement_eq_none (h : state.IsSketched comments k)
    (hnone : k.statement = none) : state.statement = none := by
  simpa [hnone] using h.statement

/-- A statement is finished by what does not end it. -/
theorem State.IsSketched.settle (h : state.IsSketched comments k) (hk : k.settle = some k') :
    ∃ settled, state.settle = .ok settled ∧ settled.IsSketched comments k' ∧
      settled.statement = none ∧ settled.offset = state.offset := by
  unfold Sketch.settle at hk
  split at hk
  · next hnone =>
    cases hk
    have hstate := h.statement_eq_none hnone
    refine ⟨state, ?_, h, hstate, rfl⟩
    rw [State.settle, hstate]
  · next plain hplain =>
    obtain ⟨statement, hstatement, rfl, -, hprinted⟩ := h.exists_statement hplain
    rw [Statement.outline?_plain, Option.map_eq_some_iff] at hk
    obtain ⟨outlined, houtlined, rfl⟩ := hk
    obtain ⟨node, hnode, hshape, hlost⟩ :=
      nodeOf_of_outline? comments houtlined state.before []
    have hsettle : state.settle = .ok { state.push node with
        frame := { nodes := state.frame.nodes ++ [node], semicolon := false }
        before := statement.gap
        statement := none } := by
      rw [State.settle, hstatement]
      simp only [hnode]
      rfl
    exact ⟨_, hsettle,
      ⟨h.frame.push hshape (hlost hprinted) false, h.outer, rfl, by simp⟩, rfl, rfl⟩

/-- A statement is finished by a semicolon. -/
theorem State.IsSketched.terminate (h : state.IsSketched comments k) (hk : k.settle = some k') :
    ∃ next, step state ⟨.semicolon, [';']⟩ = .ok next ∧ next.IsSketched comments k' := by
  unfold Sketch.settle at hk
  split at hk
  · next hnone =>
    cases hk
    have hstate := h.statement_eq_none hnone
    refine ⟨_, step_eq_ok.mpr ⟨rfl, rfl, _, by rw [hstate]; rfl, rfl⟩, ?_⟩
    exact ⟨h.frame, h.outer, h.statement, h.balanced⟩
  · next plain hplain =>
    obtain ⟨statement, hstatement, rfl, hbrackets, hprinted⟩ := h.exists_statement hplain
    rw [Statement.outline?_plain, Option.map_eq_some_iff] at hk
    obtain ⟨outlined, houtlined, rfl⟩ := hk
    obtain ⟨node, hnode, hshape, hlost⟩ :=
      nodeOf_of_outline? comments houtlined state.before statement.gap
    have hinside : state.inside statement ⟨.semicolon, [';']⟩ = .ok { state.push node with
        frame := { nodes := state.frame.nodes ++ [node], semicolon := true }
        statement := none } := by
      simp only [State.inside, hbrackets, State.terminate, hnode]
      rfl
    refine ⟨_, step_eq_ok.mpr ⟨rfl, rfl, _, by rw [hstatement]; exact hinside, rfl⟩, ?_⟩
    exact ⟨h.frame.push hshape (hlost hprinted) true, h.outer, rfl, by simp⟩

/-! ### Bodies -/

/-- A body is opened. -/
theorem State.IsSketched.openBody (h : state.IsSketched comments k) :
    ∃ next, step state ⟨.openCurly, ['\x7b']⟩ = .ok next ∧
      next.IsSketched comments k.openBody := by
  have hopens {statement : Statement} (hprinted : statement.IsPrinted)
      (hheading : (k.statement.getD { start := 0 }).heading = statement.heading) :
      ({ state.openBody statement with offset := state.offset + 1 }).IsSketched comments
        k.openBody := by
    refine ⟨⟨rfl, rfl⟩, .cons ⟨hheading.symm, ?_, h.frame⟩ h.outer, rfl, by simp [Sketch.openBody]⟩
    rw [hheading]
    exact hprinted
  cases hk : k.statement with
  | none =>
    have hstate := h.statement_eq_none hk
    refine ⟨_, step_eq_ok.mpr ⟨rfl, rfl, _, by rw [hstate]; rfl, rfl⟩, ?_⟩
    refine hopens ?_ (by rw [hk]; rfl)
    rintro name afterName params ⟨⟩
  | some plain =>
    obtain ⟨statement, hstatement, rfl, hbrackets, hprinted⟩ := h.exists_statement hk
    have hinside : state.inside statement ⟨.openCurly, ['\x7b']⟩ =
        .ok (state.openBody statement) := by
      simp only [State.inside, hbrackets]
    refine ⟨_, step_eq_ok.mpr ⟨rfl, rfl, _, by rw [hstatement]; exact hinside, rfl⟩, ?_⟩
    exact hopens hprinted (by rw [hk]; rfl)

/-- The node of a body has the outline that its heading says, and all of it is printed. -/
theorem Opening.IsSketched.close {opening : Opening} {frame inner : Frame}
    {outer : Heading × List Node} {nodes : List Node}
    (h : Opening.IsSketched comments (opening, frame) outer)
    (hinner : inner.IsSketched comments nodes) (after : List Char) :
    (opening.close inner after).outline comments = [outer.1.outline nodes] ∧
      (opening.close inner after).lost = 0 := by
  obtain ⟨heading, before, between, offset⟩ := opening
  obtain rfl : heading = outer.1 := h.heading
  cases hheading : outer.1 with
  | rule selector =>
    simp [Opening.close, Node.outline, Heading.outline, Node.lost, hinner.nodes, hinner.lost]
  | atRule name afterName params =>
    have hprinted := h.printed name afterName params hheading
    refine ⟨by simp [Opening.close, Node.outline, Heading.outline, hinner.nodes], ?_⟩
    by_cases hparams : params = ""
    · simp [Opening.close, Node.lost, hinner.lost, hprinted hparams]
    · simp [Opening.close, Node.lost, hinner.lost, hparams]

/-- A body is closed. -/
theorem State.IsSketched.closeBody (h : state.IsSketched comments k)
    (hnone : state.statement = none) (hk : k.closeBody = some k') :
    ∃ next, state.closeBody = .ok next ∧ next.IsSketched comments k' := by
  have houter := h.outer
  unfold Sketch.closeBody at hk
  unfold State.closeBody
  cases hstate : state.outer with
  | nil =>
    rw [hstate, List.forall₂_nil_left_iff] at houter
    rw [houter] at hk
    cases hk
  | cons pair rest =>
    obtain ⟨opening, frame⟩ := pair
    rw [hstate, List.forall₂_cons_left_iff] at houter
    obtain ⟨outer, rest', hopening, hrest, hkouter⟩ := houter
    rw [hkouter] at hk
    cases hk
    obtain ⟨hshape, hlost⟩ := hopening.close h.frame state.before
    refine ⟨_, rfl, hopening.frame.push hshape hlost frame.semicolon, hrest, ?_, by simp⟩
    simp [State.push, hnone]

/-- A closing brace finishes a statement and closes the body. -/
theorem State.IsSketched.close {middle : Sketch} (h : state.IsSketched comments k)
    (hsettle : k.settle = some middle) (hk : middle.closeBody = some k') :
    ∃ next, step state ⟨.closeCurly, ['\x7d']⟩ = .ok next ∧ next.IsSketched comments k' := by
  obtain ⟨settled, hsettled, hmiddle, hnone, -⟩ := h.settle hsettle
  obtain ⟨closed, hclosed, hsketched⟩ := hmiddle.closeBody hnone hk
  refine ⟨_, step_eq_ok.mpr ⟨rfl, rfl, closed, ?_, rfl⟩, ?_⟩
  · cases hstatement : state.statement with
    | none =>
      rw [State.settle, hstatement] at hsettled
      cases hsettled
      exact hclosed
    | some statement =>
      simp only [State.inside, h.brackets hstatement, hsettled]
      exact hclosed
  · exact ⟨hsketched.frame, hsketched.outer, hsketched.statement, hsketched.balanced⟩

/-! ### Pieces -/

theorem State.IsSketched.comment (h : state.IsSketched comments k) (hnone : k.statement = none)
    (text : List Char) :
    ∃ next, step state ⟨.comment, (Piece.comment text).text⟩ = .ok next ∧
      next.IsSketched comments { k with
        nodes := k.nodes ++ (Node.comment (String.ofList text) {}).outline comments } := by
  have hstate := h.statement_eq_none hnone
  have hclosed : Token.isUnclosedComment ⟨.comment, (Piece.comment text).text⟩ = false := by
    simp [Token.isUnclosedComment, Piece.text]
  have hcomment : commentOf state.before ⟨.comment, (Piece.comment text).text⟩ =
      .comment (String.ofList text) { before := some (String.ofList state.before) } := by
    simp [commentOf, Piece.text]
  refine ⟨_, step_eq_ok.mpr ⟨rfl, hclosed, _, by rw [hstate]; rfl, rfl⟩, ?_⟩
  rw [hcomment]
  exact ⟨h.frame.push rfl rfl state.frame.semicolon, h.outer, h.statement, h.balanced⟩

theorem State.IsSketched.words (h : state.IsSketched comments k) (hnone : k.statement = none)
    {text : List Char} {d : Char} (hreadable : Readable text d)
    (hprinted : (statementOf 0 (spelling text)).IsPrinted) :
    ∃ next, (spelling text).foldlM step state = .ok next ∧
      next.IsSketched comments { k with statement := some (statementOf 0 (spelling text)) } := by
  refine ⟨_, hreadable.spelled.steps (h.statement_eq_none hnone), ?_⟩
  obtain ⟨-, hgap, hbrackets⟩ := hreadable.spelled.statementOf_eq 0
  refine ⟨h.frame, h.outer, ?_, ?_⟩
  · rw [Option.map_some, statementOf_start state.offset 0]
    exact congrArg some (Statement.plain_eq_self (start_statementOf 0 _) hgap)
  · rintro statement ⟨⟩
    exact ⟨hbrackets, hprinted⟩

/-- **What one piece does** is done by the tokens that it is cut into: by one, up to those of a
statement. -/
theorem State.IsSketched.piece {p : Piece} {cs : List Char} (h : state.IsSketched comments k)
    (hstands : p.Stands cs) (hk : k.step comments p = some k') :
    ∃ toks next, tokens (p.text ++ cs) = toks ++ tokens cs ∧ toks.foldlM step state = .ok next ∧
      next.IsSketched comments k' := by
  have hsingle {token : Token} (htokens : tokens (p.text ++ cs) = token :: tokens cs)
      (hnext : ∃ next, step state token = .ok next ∧ next.IsSketched comments k') :
      ∃ toks next, tokens (p.text ++ cs) = toks ++ tokens cs ∧ toks.foldlM step state = .ok next ∧
        next.IsSketched comments k' := by
    obtain ⟨next, hnext, hsketched⟩ := hnext
    refine ⟨[token], next, htokens, ?_, hsketched⟩
    rw [List.foldlM_cons, hnext]
    rfl
  cases hstands with
  | mark hc =>
    rcases hc with rfl | rfl | rfl
    · exact hsingle (tokens_mark rfl cs) (h.terminate hk)
    · cases hk
      exact hsingle (tokens_mark rfl cs) h.openBody
    · obtain ⟨settled, hsettled, hclosed⟩ := Option.bind_eq_some_iff.mp hk
      exact hsingle (tokens_mark rfl cs) (h.close hsettled hclosed)
  | comment htext =>
    rw [Sketch.step] at hk
    split_ifs at hk with hnone
    cases hk
    exact hsingle (tokens_comment htext cs) (h.comment (by simpa using hnone) _)
  | words hreadable hnext hprinted _ =>
    rw [Sketch.step] at hk
    split_ifs at hk with hnone
    cases hk
    obtain ⟨next, hsteps, hsketched⟩ := h.words (by simpa using hnone) hreadable hprinted
    exact ⟨_, next, hreadable.tokens_append hnext, hsteps, hsketched⟩

/-- **A reader goes along with a sketch**, piece by piece. -/
theorem steps_of_spaced {cs : List Char} {pieces : List Piece} (hspaced : Spaced cs pieces)
    (h : state.IsSketched comments k) (hk : pieces.foldlM (Sketch.step comments) k = some k') :
    ∃ next, (tokens cs).foldlM step state = .ok next ∧ next.IsSketched comments k' := by
  induction hspaced generalizing state k with
  | nil =>
    cases hk
    exact ⟨state, by rw [tokens]; rfl, h⟩
  | @space c cs pieces hc hspaced ih =>
    rw [steps_cons_space (fun _ hstatement => h.brackets hstatement) hc]
    exact ih (h.addSpace [c]) hk
  | @piece p cs pieces hstands hspaced ih =>
    rw [List.foldlM_cons] at hk
    obtain ⟨middle, hmiddle, hk⟩ := Option.bind_eq_some_iff.mp hk
    obtain ⟨toks, next, htokens, hnext, hsketched⟩ := h.piece hstands hmiddle
    rw [htokens, List.foldlM_append, hnext]
    exact ih hsketched hk

end Reader

/-- **A text is read as its pieces are**, and a statement that they leave begun is finished where
the text ends. -/
theorem ofString_of_spaced {text : String} {pieces : List Piece} {comments : Bool}
    {nodes : List Node} (hspaced : Spaced text.toList pieces)
    (hk : (pieces.foldlM (Reader.Sketch.step comments) {}).bind Reader.Sketch.settle =
      some { nodes }) :
    ∃ sheet, Sheet.ofString text = .ok sheet ∧ outline comments sheet.nodes = nodes ∧
      lostNodes sheet.nodes = 0 := by
  obtain ⟨k, hk, hsettle⟩ := Option.bind_eq_some_iff.mp hk
  obtain ⟨state, hstate, hsketched⟩ := Reader.steps_of_spaced hspaced .initial hk
  obtain ⟨settled, hsettled, hsketched, -, -⟩ := hsketched.settle hsettle
  have houter : settled.outer = [] := List.forall₂_nil_right_iff.mp hsketched.outer
  refine ⟨⟨settled.frame.nodes, String.ofList settled.before, settled.frame.semicolon⟩, ?_,
    hsketched.frame.nodes, hsketched.frame.lost⟩
  rw [Sheet.ofString, Reader.ofTokens, hstate]
  simp [bind, Except.bind, Reader.finish, hsettled, houter, pure, Except.pure]

end Restyle.Css
