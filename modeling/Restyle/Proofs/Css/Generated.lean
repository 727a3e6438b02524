import Restyle.Proofs.Css.Alone

/-!
# Style sheets that were generated

A tree that was never read is printed with the printer's own white space, and it is read back
as the same tree if each of its nodes reads alone. Nothing is asked of the nodes together: a text
that is one clause alone is so between any others (`Restyle.Css.Reader.IsClause`), for what stands
in front of it leaves the reader idle (`Restyle.Css.Reader.State.IsIdle`), and what is behind its
mark has no say in it.

So a text can be said to be the text of nodes, whatever is around it
(`Restyle.Css.Reader.IsTextOf`). Such texts are so one after the other, and in bodies; and by
recursion on the tree what is printed is the text of the tree.
-/

namespace Restyle.Css

/-! ### The nodes of a tree -/

mutual

/-- A node and the nodes in it, however deep. -/
def Node.parts : Node → List Node
  | .rule selector nodes layout => .rule selector nodes layout :: parts nodes
  | .block name params nodes layout => .block name params nodes layout :: parts nodes
  | .statement name params layout => [.statement name params layout]
  | .declaration property value layout => [.declaration property value layout]
  | .comment text layout => [.comment text layout]

/-- All nodes of a tree, however deep. -/
def parts : List Node → List Node
  | [] => []
  | node :: rest => node.parts ++ parts rest

end

namespace Reader

/-! ### Texts of nodes -/

/-- Whether a reader is between two statements, in a container all statements of which end with
semicolons. -/
structure State.IsIdle (state : State) : Prop where
  statement : state.statement = none
  semicolon : state.frame.semicolon = true

/-- **What reading a text does to an idle reader**: nodes are added to the open container, and
the reader is idle again. -/
structure Adds (cs : List Char) (outlined : List Node) (state next : State) : Prop where
  steps : ∀ rest, (tokens (cs ++ rest)).foldlM step state = (tokens rest).foldlM step next
  idle : next.IsIdle
  outer : next.outer = state.outer
  nodes : outline true next.frame.nodes = outline true state.frame.nodes ++ outlined
  before : next.before = if cs.isEmpty then state.before else []

/-- **A text is the text of nodes** if they are what reading it adds, wherever it stands. -/
def IsTextOf (cs : List Char) (outlined : List Node) : Prop :=
  ∀ state : State, state.IsIdle → ∃ next, Adds cs outlined state next

/-- A text opens a body under a heading, wherever it stands. -/
def Opens (cs : List Char) (heading : Heading) : Prop :=
  ∀ state : State, state.IsIdle → ∃ opening opened,
    (∀ rest, (tokens (cs ++ rest)).foldlM step state = (tokens rest).foldlM step opened) ∧
      opened.IsIdle ∧ opened.frame.nodes = [] ∧ opening.heading = heading ∧
        opened.outer = (opening, state.frame) :: state.outer

variable {cs cs' blanks : List Char} {outlined outlined' : List Node} {state : State}

theorem isTextOf_nil : IsTextOf [] [] :=
  fun state hidle => ⟨state, fun _ => rfl, hidle, rfl, (List.append_nil _).symm, rfl⟩

theorem IsTextOf.append (h : IsTextOf cs outlined) (h' : IsTextOf cs' outlined') :
    IsTextOf (cs ++ cs') (outlined ++ outlined') := by
  intro state hidle
  obtain ⟨middle, hmiddle⟩ := h state hidle
  obtain ⟨next, hnext⟩ := h' middle hmiddle.idle
  refine ⟨next, fun rest => ?_, hnext.idle, hnext.outer.trans hmiddle.outer, ?_, ?_⟩
  · rw [List.append_assoc, hmiddle.steps, hnext.steps]
  · rw [hnext.nodes, hmiddle.nodes, List.append_assoc]
  · rw [hnext.before, hmiddle.before]
    cases cs <;> cases cs' <;> rfl

/-! ### White space -/

/-- White space in front of a statement is read as such. -/
theorem steps_blanks (hblanks : IsGap blanks) (hnone : state.statement = none) (rest : List Char) :
    (tokens (blanks ++ rest)).foldlM step state =
      (tokens rest).foldlM step (state.addSpace blanks) := by
  induction blanks generalizing state with
  | nil =>
    have hsame : state.addSpace [] = state := by
      obtain ⟨_, _, _, _, statement⟩ := state
      cases hnone
      simp [State.addSpace]
    rw [hsame]
    rfl
  | cons c blanks ih =>
    rw [List.cons_append, steps_cons_space (by simp [hnone]) (hblanks c List.mem_cons_self),
      ih (fun d hd => hblanks d (List.mem_cons_of_mem _ hd)) (by simp [State.addSpace, hnone]),
      State.addSpace_append]
    rfl

theorem State.IsIdle.addSpace (h : state.IsIdle) (blanks : List Char) :
    (state.addSpace blanks).IsIdle where
  statement := by simp [State.addSpace, h.statement]
  semicolon := h.semicolon

/-- A mark is a token that is closed. -/
theorem isClosed_of_markKind? {c : Char} {kind : Kind} (h : markKind? c = some kind) :
    Token.IsClosed ⟨kind, [c]⟩ := by
  unfold markKind? at h
  split_ifs at h <;> cases h <;> exact ⟨rfl, rfl⟩

/-- White space between two statements, and a mark. -/
theorem steps_blanks_mark (hblanks : IsGap blanks) (hnone : state.statement = none) {c : Char}
    {kind : Kind} (hc : markKind? c = some kind) {moved : State}
    (hmoved : (state.addSpace blanks).between ⟨kind, [c]⟩ = .ok moved) (rest : List Char) :
    (tokens (blanks ++ [c] ++ rest)).foldlM step state = (tokens rest).foldlM step
      { moved with offset := (state.addSpace blanks).offset + 1 } := by
  have hclosed := isClosed_of_markKind? hc
  have hspaced : (state.addSpace blanks).statement = none := by simp [State.addSpace, hnone]
  have hstep : step (state.addSpace blanks) ⟨kind, [c]⟩ =
      .ok { moved with offset := (state.addSpace blanks).offset + 1 } :=
    step_eq_ok.mpr ⟨hclosed.1, hclosed.2, moved, by rw [hspaced]; exact hmoved, rfl⟩
  rw [List.append_assoc, steps_blanks hblanks hnone, List.singleton_append, tokens_mark hc]
  exact congrArg (· >>= fun next => (tokens rest).foldlM step next) hstep

/-- White space in front of a text changes nothing. -/
theorem IsTextOf.behind (hblanks : IsGap blanks) (hne : cs ≠ []) (h : IsTextOf cs outlined) :
    IsTextOf (blanks ++ cs) outlined := by
  intro state hidle
  obtain ⟨next, hnext⟩ := h _ (hidle.addSpace blanks)
  refine ⟨next, fun rest => ?_, hnext.idle, hnext.outer, hnext.nodes, ?_⟩
  · rw [List.append_assoc, steps_blanks hblanks hidle.statement, hnext.steps]
  · rw [hnext.before]
    simp [hne]

/-! ### Statements, bodies and comments -/

/-- The state behind the tokens of a statement. -/
def State.begin (state : State) (toks : List Token) : State :=
  { state with
    statement := some (statementOf state.offset toks)
    offset := state.offset + (toks.flatMap Token.text).length }

/-- The tokens of a clause are read as one statement, and then its mark. -/
theorem IsClause.steps {toks : List Token} {c : Char} {kind : Kind} (h : IsClause toks cs c)
    (hc : markKind? c = some kind) (hnone : state.statement = none) {moved : State}
    (hmoved : (state.begin toks).inside (statementOf state.offset toks) ⟨kind, [c]⟩ = .ok moved)
    (rest : List Char) :
    (tokens (cs ++ [c] ++ rest)).foldlM step state = (tokens rest).foldlM step
      { moved with offset := (state.begin toks).offset + 1 } := by
  have hclosed := isClosed_of_markKind? hc
  have hstep : step (state.begin toks) ⟨kind, [c]⟩ =
      .ok { moved with offset := (state.begin toks).offset + 1 } :=
    step_eq_ok.mpr ⟨hclosed.1, hclosed.2, moved, hmoved, rfl⟩
  rw [List.append_assoc, List.singleton_append, h.cuts.tokens, List.foldlM_append,
    steps_of_begins h.begins h.cuts.closed h.balanced hnone, tokens_mark hc]
  exact congrArg (· >>= fun next => (tokens rest).foldlM step next) hstep

/-- **A clause and a semicolon** are the text of the node that the clause makes. -/
theorem IsClause.isTextOf {toks : List Token} (h : IsClause toks cs ';') {node : Node}
    (hnode : (statementOf 0 toks).outline? = some node) : IsTextOf (cs ++ [';']) [node] := by
  intro state hidle
  have hbrackets := (statementOf_spec h.balanced state.offset).1
  rw [← Statement.outline?_statementOf state.offset] at hnode
  obtain ⟨made, hmade, houtline, -⟩ := nodeOf_of_outline? true hnode state.before
    (statementOf state.offset toks).gap
  have hmoved : (state.begin toks).inside (statementOf state.offset toks) ⟨.semicolon, [';']⟩ =
      .ok { state.begin toks with
        frame := { nodes := state.frame.nodes ++ [made], semicolon := true }
        before := []
        statement := none } := by
    simp only [State.inside, hbrackets, State.terminate, State.begin, hmade]
    rfl
  exact ⟨_, h.steps rfl hidle.statement hmoved, ⟨rfl, rfl⟩, rfl,
    by rw [outline_append, outline_singleton, houtline], by simp⟩

/-- A clause in front of an opening brace opens a body. -/
theorem IsClause.opens {toks : List Token} (h : IsClause toks cs '\x7b') {heading : Heading}
    (hheading : (statementOf 0 toks).heading = heading) : Opens (cs ++ ['\x7b']) heading := by
  intro state hidle
  have hbrackets := (statementOf_spec h.balanced state.offset).1
  rw [← Statement.heading_statementOf state.offset] at hheading
  have hmoved : (state.begin toks).inside (statementOf state.offset toks) ⟨.openCurly, ['\x7b']⟩ =
      .ok ((state.begin toks).openBody (statementOf state.offset toks)) := by
    simp only [State.inside, hbrackets]
  exact ⟨_, _, h.steps rfl hidle.statement hmoved, ⟨rfl, rfl⟩, rfl, hheading, rfl⟩

/-- A brace with nothing but white space in front of it opens a body under no selector. -/
theorem opens_blanks (hblanks : IsGap blanks) : Opens (blanks ++ ['\x7b']) (.rule "") := by
  intro state hidle
  have hmoved : (state.addSpace blanks).between ⟨.openCurly, ['\x7b']⟩ =
      .ok ((state.addSpace blanks).openBody { start := (state.addSpace blanks).offset }) := rfl
  exact ⟨_, _, steps_blanks_mark hblanks hidle.statement rfl hmoved, ⟨rfl, rfl⟩, rfl, rfl, rfl⟩

/-- The outline of the node that a body makes. -/
theorem Opening.outline_close (opening : Opening) (inner : Frame) (after : List Char) :
    (opening.close inner after).outline true =
      [opening.heading.outline (outline true inner.nodes)] := by
  obtain ⟨heading, before, between, offset⟩ := opening
  cases heading <;> rfl

/-- **A body is the text of a node** with the nodes in it that are in the body. -/
theorem Opens.body {heading : Heading} (h : Opens cs heading) (hbody : IsTextOf cs' outlined)
    (hblanks : IsGap blanks) :
    IsTextOf (cs ++ (cs' ++ (blanks ++ ['\x7d']))) [heading.outline outlined] := by
  intro state hidle
  obtain ⟨opening, opened, hopen, hopened, hempty, rfl, houter⟩ := h state hidle
  obtain ⟨inner, hinner⟩ := hbody opened hopened
  obtain ⟨closed, hclosed, hidle', houter', hnodes, hbefore⟩ : ∃ closed,
      (inner.addSpace blanks).between ⟨.closeCurly, ['\x7d']⟩ = .ok closed ∧ closed.IsIdle ∧
        closed.outer = state.outer ∧ outline true closed.frame.nodes =
          outline true state.frame.nodes ++ [opening.heading.outline outlined] ∧
        closed.before = [] := by
    -- the nodes of the body were read on top of what was kept when it was opened
    have houters : (inner.addSpace blanks).outer = (opening, state.frame) :: state.outer :=
      hinner.outer.trans houter
    simp only [State.between, State.closeBody, houters]
    refine ⟨_, rfl, ⟨(hinner.idle.addSpace blanks).statement, hidle.semicolon⟩, rfl, ?_, rfl⟩
    rw [State.push, outline_append, outline_singleton, Opening.outline_close]
    simp [State.addSpace, hinner.nodes, hempty, outline]
  refine ⟨{ closed with offset := (inner.addSpace blanks).offset + 1 }, fun rest => ?_,
    ⟨hidle'.statement, hidle'.semicolon⟩, houter', hnodes, by simpa using hbefore⟩
  have hclose := steps_blanks_mark hblanks hinner.idle.statement rfl hclosed rest
  simp only [List.append_assoc] at hclose ⊢
  rw [hopen, hinner.steps, hclose]

/-- **A comment** is the text of itself. -/
theorem isTextOf_comment {text : String} (h : ¬['*', '/'] <:+: text.toList) :
    IsTextOf (Piece.comment text.toList).text [.comment text {}] := by
  intro state hidle
  have hclosed : Token.isUnclosedComment ⟨.comment, (Piece.comment text.toList).text⟩ = false := by
    simp [Token.isUnclosedComment, Piece.text]
  have hcomment : commentOf state.before ⟨.comment, (Piece.comment text.toList).text⟩ =
      .comment text { before := some (String.ofList state.before) } := by
    simp [commentOf, Piece.text]
  have hmoved : state.between ⟨.comment, (Piece.comment text.toList).text⟩ =
      .ok (state.push (.comment text { before := some (String.ofList state.before) })) := by
    simp only [State.between, hcomment]
  have hstep : step state ⟨.comment, (Piece.comment text.toList).text⟩ =
      .ok { state.push (.comment text { before := some (String.ofList state.before) }) with
        offset := state.offset + (Piece.comment text.toList).text.length } :=
    step_eq_ok.mpr ⟨rfl, hclosed, _, by rw [hidle.statement]; exact hmoved, rfl⟩
  refine ⟨{ state.push (.comment text { before := some (String.ofList state.before) }) with
    offset := state.offset + (Piece.comment text.toList).text.length }, fun rest => ?_,
    ⟨hidle.statement, hidle.semicolon⟩, rfl, ?_, by simp [State.push, Piece.text]⟩
  · rw [tokens_comment h]
    exact congrArg (· >>= fun next => (tokens rest).foldlM step next) hstep
  · simp [State.push, outline_append, outline, Node.outline]

end Reader

/-! ### Trees -/

open Reader (Opens IsTextOf)

/-- The opening of a rule that reads alone. -/
theorem Node.ReadsAlone.opens_rule {selector : String} {nodes : List Node} {layout : Layout}
    (h : (Node.rule selector nodes layout).ReadsAlone) :
    Opens (selector.toList ++ [' '] ++ ['\x7b']) (.rule selector) := by
  by_cases hempty : selector = ""
  · -- no statement begins in front of the brace, so there is no clause to ask for
    rw [hempty]
    exact Reader.opens_blanks isGap_space
  · obtain ⟨toks, hclause, hheading⟩ := h.exists_rule hempty
    exact hclause.opens hheading

/-- A node on a line of its own. -/
theorem isTextOf_line (depth index : Nat) {node : Node} (hbare : node.layout = {})
    (hne : (node.render depth true).toList ≠ [])
    (h : IsTextOf (node.render depth true).toList [node]) :
    IsTextOf (renderNodes depth index true [node]).toList [node] := by
  have htext : (renderNodes depth index true [node]).toList =
      (defaultBefore depth index).toList ++ (node.render depth true).toList := by
    simp [renderNodes, hbare]
  rw [htext]
  exact h.behind (isGap_defaultBefore depth index) hne

/-- The text of nodes is that of the first ones, and that of the others. -/
theorem renderNodes_append (depth index : Nat) (xs ys : List Node) :
    renderNodes depth index true (xs ++ ys) =
      renderNodes depth index true xs ++ renderNodes depth (index + xs.length) true ys := by
  induction xs generalizing index with
  | nil => simp [renderNodes]
  | cons x xs ih =>
    simp [renderNodes, ih, String.append_assoc, Nat.add_assoc, Nat.add_comm 1]

mutual

/-- **What is printed of a node is its text**, wherever it stands, if it and all nodes in it read
alone. -/
theorem Node.isTextOf (depth index : Nat) : ∀ {node : Node},
    (∀ part ∈ node.parts, part.ReadsAlone) →
      IsTextOf (renderNodes depth index true (node.outline true)).toList (node.outline true)
  | .comment text layout, h => by
    have hclosed := (h _ List.mem_cons_self).not_infix_text
    refine isTextOf_line depth index rfl (by simp [Node.render]) ?_
    have htext : ((Node.comment text {}).render depth true).toList =
        (Piece.comment text.toList).text := by simp [Node.render, Piece.text]
    rw [htext]
    exact Reader.isTextOf_comment hclosed
  | .declaration property value layout, h => by
    obtain ⟨toks, hclause, hnode⟩ := (h _ List.mem_cons_self).exists_declaration
    refine isTextOf_line depth index rfl (by simp [Node.render]) ?_
    have htext : ((Node.declaration property value {}).render depth true).toList =
        (property ++ ": " ++ value).toList ++ [';'] := by simp [Node.render]
    rw [htext]
    exact hclause.isTextOf hnode
  | .statement name params layout, h => by
    obtain ⟨toks, hclause, hnode⟩ := (h _ List.mem_cons_self).exists_statement
    refine isTextOf_line depth index rfl (by simp [Node.render]) ?_
    have htext : ((Node.statement name params {}).render depth true).toList =
        atRuleText name params none ++ [';'] := by simp [Node.render, atRuleText]
    rw [htext]
    exact hclause.isTextOf hnode
  | .block name params nodes layout, h => by
    obtain ⟨toks, afterName, hclause, hheading⟩ := (h _ List.mem_cons_self).exists_block
    have hbody := isTextOf_outline (depth + 1) 0 fun part hpart =>
      h part (List.mem_cons_of_mem _ hpart)
    refine isTextOf_line depth index rfl (by simp [Node.render]) ?_
    have htext : ((Node.block name params (outline true nodes) {}).render depth true).toList =
        atRuleText name params none ++ [' '] ++ ['\x7b'] ++
          ((renderNodes (depth + 1) 0 true (outline true nodes)).toList ++
            (("\n" ++ indentation depth).toList ++ ['\x7d'])) := by
      simp [Node.render, atRuleText]
    rw [htext]
    exact (hclause.opens hheading).body hbody (isGap_lineFeed_indentation depth)
  | .rule selector nodes layout, h => by
    have hopens := (h _ List.mem_cons_self).opens_rule
    have hbody := isTextOf_outline (depth + 1) 0 fun part hpart =>
      h part (List.mem_cons_of_mem _ hpart)
    refine isTextOf_line depth index rfl (by simp [Node.render]) ?_
    have htext : ((Node.rule selector (outline true nodes) {}).render depth true).toList =
        selector.toList ++ [' '] ++ ['\x7b'] ++
          ((renderNodes (depth + 1) 0 true (outline true nodes)).toList ++
            (("\n" ++ indentation depth).toList ++ ['\x7d'])) := by
      simp [Node.render]
    rw [htext]
    exact hopens.body hbody (isGap_lineFeed_indentation depth)

/-- **So does a tree.** -/
theorem isTextOf_outline (depth index : Nat) : ∀ {nodes : List Node},
    (∀ part ∈ parts nodes, part.ReadsAlone) →
      IsTextOf (renderNodes depth index true (outline true nodes)).toList (outline true nodes)
  | [], _ => Reader.isTextOf_nil
  | node :: rest, h => by
    have hnode := Node.isTextOf depth index fun part hpart => h part (List.mem_append_left _ hpart)
    have hrest := isTextOf_outline depth (index + (node.outline true).length) fun part hpart =>
      h part (List.mem_append_right _ hpart)
    rw [outline, renderNodes_append, String.toList_append]
    exact hnode.append hrest

end

/-- **A tree that was generated is read back**, if each of its nodes reads alone: its text is read
without error, as the same tree up to the layout that is read, and as a style sheet with nothing
behind the last node. -/
theorem ofString_render_of_readsAlone {nodes : List Node} (hbare : outline true nodes = nodes)
    (halone : ∀ node ∈ parts nodes, node.ReadsAlone) :
    ∃ sheet, Sheet.ofString (Sheet.render { nodes }) = .ok sheet ∧
      { sheet with nodes := outline true sheet.nodes } = ({ nodes } : Sheet) := by
  have hprinted := isTextOf_outline 0 0 halone
  rw [hbare] at hprinted
  obtain ⟨state, hstate⟩ := hprinted {} ⟨rfl, rfl⟩
  have hsteps := hstate.steps []
  rw [List.append_nil, tokens, List.foldlM_nil] at hsteps
  have hbefore : state.before = [] := by simpa using hstate.before
  refine ⟨⟨state.frame.nodes, String.ofList state.before, state.frame.semicolon⟩, ?_, ?_⟩
  · rw [Sheet.ofString, Sheet.render, String.append_empty, Reader.ofTokens, hsteps]
    simp [bind, Except.bind, pure, Except.pure, Reader.finish, Reader.State.settle,
      hstate.idle.statement, hstate.outer]
  · rw [Sheet.mk.injEq]
    exact ⟨hstate.nodes, by rw [hbefore], hstate.idle.semicolon⟩

/-- A body in a body, next to a comment and an at-rule without a body. -/
theorem ofString_render_generated :
    let nodes : List Node :=
      [.comment " base " {}, .statement "import" "\"a.css\"" {},
        .block "media" "(width > 1px)"
          [.rule "a:hover" [.declaration "color" "red" {}] {}, .rule "b" [] {}] {}]
    outline true nodes = nodes ∧ (∀ node ∈ parts nodes, node.ReadsAlone) ∧
      ∃ sheet, Sheet.ofString (Sheet.render { nodes }) = .ok sheet ∧
        { sheet with nodes := outline true sheet.nodes } = ({ nodes } : Sheet) := by
  intro nodes
  let hover : Node := .rule "a:hover" [.declaration "color" "red" {}] {}
  have hcomment : (Node.comment " base " {}).ReadsAlone :=
    ⟨⟨[.comment " base " { before := some "" }], "", true⟩, by decide +kernel, rfl⟩
  have himport : (Node.statement "import" "\"a.css\"" {}).ReadsAlone :=
    ⟨⟨[.statement "import" "\"a.css\""
      { before := some "", between := some "", afterName := some " " }], "", true⟩,
      by decide +kernel, rfl⟩
  have hmedia : (Node.block "media" "(width > 1px)" [hover, .rule "b" [] {}] {}).ReadsAlone :=
    ⟨⟨[.block "media" "(width > 1px)" []
      { before := some "", between := some " ", after := some "\n", afterName := some " ",
        semicolon := some true }], "", true⟩, by decide +kernel, rfl⟩
  have hhover : hover.ReadsAlone :=
    ⟨⟨[.rule "a:hover" []
      { before := some "", between := some " ", after := some "\n", semicolon := some true }],
      "", true⟩, by decide +kernel, rfl⟩
  have hcolor : (Node.declaration "color" "red" {}).ReadsAlone :=
    ⟨⟨[.declaration "color" "red"
      { before := some "", between := some ": ", after := some "" }], "", true⟩,
      by decide +kernel, rfl⟩
  have hb : (Node.rule "b" [] {}).ReadsAlone :=
    ⟨⟨[.rule "b" []
      { before := some "", between := some " ", after := some "\n", semicolon := some true }],
      "", true⟩, by decide +kernel, rfl⟩
  have halone : ∀ node ∈ parts nodes, node.ReadsAlone := by
    simp only [nodes, parts, Node.parts, List.cons_append, List.nil_append, List.forall_mem_cons]
    exact ⟨hcomment, himport, hmedia, hhover, hcolor, hb, by simp⟩
  exact ⟨rfl, halone, ofString_render_of_readsAlone rfl halone⟩

end Restyle.Css
