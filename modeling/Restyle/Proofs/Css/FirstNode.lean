import Restyle.Proofs.Css.Spelling

/-!
# The first node of a style sheet

A style sheet that is read from a text starts with the node that the first tokens of the text
make, and from the node one can tell what kind of tokens these are: a comment, the opening
brace of a body without a heading, or the tokens of a statement, up to the mark that ends it
(`Restyle.Css.Reader.FirstNode`).

For a node stays where it is once it is in the outermost container, and so does a body that is
open there until it is closed: of what a token does (`Restyle.Css.Reader.Effect`) nothing
touches the nodes that are there already.
-/

namespace Restyle.Css

namespace Reader

/-! ### What a token does to the containers -/

/-- **What a token does to the containers**: nodes are added to the open one, another one is
opened in it, or it is closed. -/
inductive Effect (state next : State) : Prop
  | fill (new : List Node) : next.outer = state.outer →
      next.frame.nodes = state.frame.nodes ++ new → Effect state next
  | opens (opening : Opening) : next.outer = (opening, state.frame) :: state.outer →
      Effect state next
  | closes {opening : Opening} {frame : Frame} (inner : Frame) (after : List Char) :
      state.outer = (opening, frame) :: next.outer →
      next.frame.nodes = frame.nodes ++ [opening.close inner after] → Effect state next

theorem Effect.of_eq {state next : State} (houter : next.outer = state.outer)
    (hnodes : next.frame.nodes = state.frame.nodes) : Effect state next :=
  .fill [] houter (by rw [hnodes, List.append_nil])

/-- A statement that nothing ends is one more node in the open container. -/
theorem outer_settle {state settled : State} (h : state.settle = .ok settled) :
    settled.outer = state.outer ∧ state.frame.nodes <+: settled.frame.nodes := by
  unfold State.settle at h
  split at h
  · cases h
    exact ⟨rfl, List.prefix_rfl⟩
  · obtain ⟨node, -, h⟩ := bind_eq_ok.mp h
    cases h
    exact ⟨rfl, [node], rfl⟩

theorem Effect.of_closeBody {state settled next : State} (houter : settled.outer = state.outer)
    (h : settled.closeBody = .ok next) : Effect state next := by
  unfold State.closeBody at h
  split at h
  · cases h
  · next opening frame outer hcons =>
    cases h
    exact .closes settled.frame settled.before (houter ▸ hcons) rfl

theorem Effect.of_between {state next : State} {token : Token}
    (h : state.between token = .ok next) :
    Effect state next := by
  unfold State.between at h
  split at h
  · cases h
    exact .of_eq rfl rfl
  · cases h
    exact .of_eq rfl rfl
  · exact .of_closeBody rfl h
  · cases h
    exact .fill [_] rfl rfl
  · cases h
    exact .opens _ rfl
  · cases h
    exact .of_eq rfl rfl

theorem Effect.of_inside {state next : State} {statement : Statement} {token : Token}
    (h : state.inside statement token = .ok next) : Effect state next := by
  unfold State.inside at h
  split at h
  · cases h
    exact .of_eq rfl rfl
  split at h
  · cases h
    exact .of_eq rfl rfl
  · obtain ⟨node, -, h⟩ := bind_eq_ok.mp h
    cases h
    exact .fill [node] rfl rfl
  · obtain ⟨settled, hsettled, h⟩ := bind_eq_ok.mp h
    exact .of_closeBody (outer_settle hsettled).1 h
  · cases h
    exact .opens _ rfl
  · cases h
    exact .of_eq rfl rfl

theorem effect_of_step {state next : State} {token : Token} (h : step state token = .ok next) :
    Effect state next := by
  obtain ⟨-, -, moved, hmoved, rfl⟩ := step_eq_ok.mp h
  have heffect : Effect state moved := by
    split at hmoved
    · exact .of_between hmoved
    · exact .of_inside hmoved
  -- the number of characters read, which the step sets last, is no part of the containers
  cases heffect with
  | fill new houter hnodes => exact .fill new houter hnodes
  | opens opening houter => exact .opens opening houter
  | closes inner after houter hnodes => exact .closes inner after houter hnodes

/-! ### The outermost container -/

/-- The outermost container. -/
def State.outermost (state : State) : Frame :=
  state.outer.foldl (fun _ pair => pair.2) state.frame

/-- Whether the first node of the outermost container is made by a body: by one that is still
open, or by one that was closed. -/
def State.Leads (state : State) (opening : Opening) : Prop :=
  (∃ more frame, state.outer = more ++ [(opening, frame)] ∧ frame.nodes = []) ∨
    ∃ inner after, state.outermost.nodes.head? = some (opening.close inner after)

/-- More nodes in the innermost container leave those of the outermost one where they are. -/
theorem outermost_prefix (outer : List (Opening × Frame)) {frame grown : Frame}
    (h : frame.nodes <+: grown.nodes) :
    (outer.foldl (fun _ pair => pair.2) frame).nodes <+:
      (outer.foldl (fun _ pair => pair.2) grown).nodes := by
  cases outer with
  | nil => exact h
  | cons pair outer => exact List.prefix_rfl

theorem Effect.outermost_prefix {state next : State} (h : Effect state next) :
    state.outermost.nodes <+: next.outermost.nodes := by
  unfold State.outermost
  cases h with
  | fill new houter hnodes =>
    rw [houter]
    exact Reader.outermost_prefix _ ⟨new, hnodes.symm⟩
  | opens opening houter =>
    rw [houter]
    exact List.prefix_rfl
  | closes inner after houter hnodes =>
    rw [houter]
    exact Reader.outermost_prefix _ ⟨_, hnodes.symm⟩

theorem head?_of_prefix {α : Type} {xs ys : List α} (h : xs <+: ys) {x : α}
    (hx : xs.head? = some x) : ys.head? = some x := by
  obtain ⟨more, rfl⟩ := h
  rw [List.head?_append, hx]
  rfl

/-- A body in the outermost container stays open until it is the node there. -/
theorem Effect.leads {state next : State} (h : Effect state next) {opening : Opening}
    (hleads : state.Leads opening) : next.Leads opening := by
  rcases hleads with ⟨more, frame, houter, hempty⟩ | ⟨inner, after, hhead⟩
  · cases h with
    | fill new hnext hnodes => exact .inl ⟨more, frame, hnext.trans houter, hempty⟩
    | opens other hnext =>
      exact .inl ⟨(other, state.frame) :: more, frame, by rw [hnext, houter]; rfl, hempty⟩
    | closes inner after hnext hnodes =>
      rw [houter] at hnext
      cases more with
      | nil =>
        -- the body that is closed is the one in the outermost container
        obtain ⟨hpair, hnil⟩ := List.cons.inj hnext
        cases hpair
        refine .inr ⟨inner, after, ?_⟩
        rw [State.outermost, ← hnil, List.foldl_nil, hnodes, hempty]
        rfl
      | cons pair more => exact .inl ⟨more, frame, (List.cons.inj hnext).2.symm, hempty⟩
  · exact .inr ⟨inner, after, head?_of_prefix h.outermost_prefix hhead⟩

/-! ### Up to the end -/

variable {toks : List Token} {state last : State} {sheet : Sheet}

/-- What the steps of a run keep. -/
theorem keep_steps {P : State → Prop} (hstep : ∀ {state next}, Effect state next → P state → P next)
    (h : toks.foldlM step state = .ok last) (hstate : P state) : P last := by
  induction toks generalizing state with
  | nil =>
    cases h
    exact hstate
  | cons token toks ih =>
    rw [List.foldlM_cons] at h
    obtain ⟨middle, hmiddle, h⟩ := bind_eq_ok.mp h
    exact ih h (hstep (effect_of_step hmiddle) hstate)

/-- At the end of a text all bodies are closed, and the nodes that were there are in the style
sheet. -/
theorem nodes_finish (h : finish last = .ok sheet) :
    last.outer = [] ∧ last.frame.nodes <+: sheet.nodes := by
  obtain ⟨settled, hsettled, h⟩ := bind_eq_ok.mp h
  have hsettle := outer_settle hsettled
  split at h
  · cases h
  · next hnil =>
    cases h
    exact ⟨hsettle.1 ▸ hnil, hsettle.2⟩

theorem head?_of_steps (h : toks.foldlM step state = .ok last) (hfinish : finish last = .ok sheet)
    {node : Node} (hnode : state.outermost.nodes.head? = some node) :
    sheet.nodes.head? = some node := by
  have hlast : last.outermost.nodes.head? = some node :=
    keep_steps (fun heffect hhead => head?_of_prefix heffect.outermost_prefix hhead) h hnode
  obtain ⟨houter, hprefix⟩ := nodes_finish hfinish
  rw [State.outermost, houter] at hlast
  exact head?_of_prefix hprefix hlast

theorem exists_close_of_steps (h : toks.foldlM step state = .ok last)
    (hfinish : finish last = .ok sheet) {opening : Opening} (hleads : state.Leads opening) :
    ∃ inner after, sheet.nodes.head? = some (opening.close inner after) := by
  have hlast : last.Leads opening :=
    keep_steps (fun heffect hleads => heffect.leads hleads) h hleads
  obtain ⟨houter, hprefix⟩ := nodes_finish hfinish
  rcases hlast with ⟨more, frame, hmore, -⟩ | ⟨inner, after, hhead⟩
  · simp [houter] at hmore
  · rw [State.outermost, houter] at hhead
    exact ⟨inner, after, head?_of_prefix hprefix hhead⟩

/-! ### The tokens of the first node -/

/-- Tokens the first of which begins a statement. -/
def Begins (toks : List Token) : Prop :=
  ∃ token rest, toks = token :: rest ∧ beginsStatement token.kind

/-- **The tokens that a style sheet's first node is made of**, and those behind them. -/
inductive FirstNode : List Token → Node → Prop
  | comment {token : Token} (rest : List Token) (before : List Char) : token.kind = .comment →
      FirstNode (token :: rest) (commentOf before token)
  /-- A body without a heading. -/
  | bare {token : Token} {opening : Opening} (rest : List Token) (inner : Frame)
      (after : List Char) : opening.heading = .rule "" →
      FirstNode (token :: rest) (opening.close inner after)
  /-- A statement that a semicolon ends, or nothing. -/
  | statement {stmt rest : List Token} {before trailing : List Char} {start : Nat} {node : Node}
      (brackets : List Kind) : Begins stmt → stmt.foldlM advance [] = some brackets →
      nodeOf before (statementOf start stmt) trailing = .ok node →
      (∀ mark ∈ rest.head?, brackets = [] ∧ mark.kind = .semicolon) → FirstNode (stmt ++ rest) node
  | body {stmt : List Token} {mark : Token} {start : Nat} {opening : Opening} (rest : List Token)
      (inner : Frame) (after : List Char) : Begins stmt → stmt.foldlM advance [] = some [] →
      mark.kind = .openCurly → opening.heading = (statementOf start stmt).heading →
      FirstNode (stmt ++ mark :: rest) (opening.close inner after)

/-- A statement goes on to the end, or to the first mark outside brackets that ends it. -/
theorem exists_advance (toks : List Token) (brackets : List Kind) :
    ∃ stmt rest after, toks = stmt ++ rest ∧ stmt.foldlM advance brackets = some after ∧
      ∀ mark ∈ rest.head?, after = [] ∧ advance [] mark = none := by
  induction toks generalizing brackets with
  | nil => exact ⟨[], [], brackets, rfl, rfl, by simp⟩
  | cons token toks ih =>
    cases h : advance brackets token with
    | none =>
      cases brackets with
      | nil =>
        refine ⟨[], token :: toks, [], rfl, rfl, ?_⟩
        rintro mark ⟨⟩
        exact ⟨rfl, h⟩
      | cons closer outer => simp [advance] at h
    | some middle =>
      obtain ⟨stmt, rest, after, rfl, hstmt, hrest⟩ := ih middle
      exact ⟨token :: stmt, rest, after, rfl, by rw [List.foldlM_cons, h]; exact hstmt, hrest⟩

/-- A mark that ends a statement. -/
theorem kind_of_advance_eq_none {mark : Token} (h : advance [] mark = none) :
    mark.kind = .semicolon ∨ mark.kind = .openCurly ∨ mark.kind = .closeCurly := by
  by_contra hnone
  simp [advance, hnone] at h

/-- What is read is closed. -/
theorem closed_of_steps (h : toks.foldlM step state = .ok last) :
    ∀ token ∈ toks, token.IsClosed := by
  induction toks generalizing state with
  | nil => simp
  | cons token toks ih =>
    rw [List.foldlM_cons] at h
    obtain ⟨middle, hmiddle, h⟩ := bind_eq_ok.mp h
    exact List.forall_mem_cons.mpr ⟨isClosed_of_step hmiddle, ih h⟩

/-- Nothing is closed where nothing is open. -/
theorem closeBody_ne_ok {next : State} (houter : state.outer = []) :
    state.closeBody ≠ .ok next := by
  simp [State.closeBody, houter]

/-- Tokens the first of which begins a statement start with the whole of it. -/
theorem exists_begins {token : Token} (hbegins : beginsStatement token.kind) (toks : List Token) :
    ∃ stmt rest brackets, token :: toks = stmt ++ rest ∧ Begins stmt ∧
      stmt.foldlM advance [] = some brackets ∧
      ∀ mark ∈ rest.head?, brackets = [] ∧ advance [] mark = none := by
  obtain ⟨stmt, rest, brackets, hsplit, hbalanced, hrest⟩ := exists_advance (token :: toks) []
  refine ⟨stmt, rest, brackets, hsplit, ?_, hbalanced, hrest⟩
  cases stmt with
  | nil =>
    -- a mark that ends a statement begins none
    rw [List.nil_append] at hsplit
    subst hsplit
    rcases kind_of_advance_eq_none (hrest token rfl).2 with hkind | hkind | hkind <;>
      simp [hkind, beginsStatement] at hbegins
  | cons first stmt =>
    obtain ⟨rfl, -⟩ := List.cons.inj hsplit
    exact ⟨token, stmt, rfl, hbegins⟩

/-! ### What the first node is -/

section

variable {found : Node} (hfinish : finish last = .ok sheet)
  (hfound : sheet.nodes.head? = some found)
include hfinish hfound

/-- A node that is alone in the outermost container is the first one at the end. -/
theorem eq_of_pushed {node : Node} (hsteps : toks.foldlM step state = .ok last)
    (houter : state.outer = []) (hnodes : state.frame.nodes = [node]) : node = found := by
  have hhead : sheet.nodes.head? = some node :=
    head?_of_steps hsteps hfinish (by simp [State.outermost, houter, hnodes])
  exact Option.some.inj (hhead.symm.trans hfound)

/-- A body that is opened in an empty outermost container is the first node when it is
closed. -/
theorem exists_eq_close {opening : Opening} {frame : Frame}
    (hsteps : toks.foldlM step state = .ok last) (houter : state.outer = [(opening, frame)])
    (hnodes : frame.nodes = []) : ∃ inner after, opening.close inner after = found := by
  obtain ⟨inner, after, hhead⟩ :=
    exists_close_of_steps hsteps hfinish (.inl ⟨[], frame, houter, hnodes⟩)
  exact ⟨inner, after, Option.some.inj (hhead.symm.trans hfound)⟩

variable (houter : state.outer = []) (hnodes : state.frame.nodes = [])
include houter hnodes

/-- Where a text ends between statements, nothing is left to make a node. -/
theorem false_of_finish (hlast : state = last) (hstatement : state.statement = none) : False := by
  subst hlast
  obtain ⟨settled, hsettled, hfinish⟩ := bind_eq_ok.mp hfinish
  rw [State.settle, hstatement] at hsettled
  cases hsettled
  simp only [houter] at hfinish
  cases hfinish
  simp [hnodes] at hfound

/-- Where a text ends in a statement, the statement is the first node. -/
theorem nodeOf_of_finish (hlast : state = last) {statement : Statement}
    (hstatement : state.statement = some statement) :
    nodeOf state.before statement [] = .ok found := by
  subst hlast
  obtain ⟨settled, hsettled, hfinish⟩ := bind_eq_ok.mp hfinish
  rw [State.settle, hstatement] at hsettled
  obtain ⟨node, hnode, hsettled⟩ := bind_eq_ok.mp hsettled
  cases hsettled
  simp only [State.push, houter] at hfinish
  cases hfinish
  obtain rfl : node = found := by simpa [hnodes] using hfound
  exact hnode

/-- The first node behind the tokens of a statement. -/
theorem FirstNode.of_begun {stmt rest : List Token} {statement : Statement} {start : Nat}
    {brackets : List Kind} (hstatement : state.statement = some statement)
    (hof : statement = statementOf start stmt) (hbegins : Begins stmt)
    (hbalanced : stmt.foldlM advance [] = some brackets)
    (hrest : ∀ mark ∈ rest.head?, brackets = [] ∧ advance [] mark = none)
    (hsteps : rest.foldlM step state = .ok last) : FirstNode (stmt ++ rest) found := by
  have hbrackets : statement.brackets = brackets := hof ▸ (statementOf_spec hbalanced start).1
  cases rest with
  | nil =>
    -- the text ends, and with it the statement, whatever brackets are open in it
    have hnode := nodeOf_of_finish hfinish hfound houter hnodes (Except.ok.inj hsteps) hstatement
    exact .statement brackets hbegins hbalanced (hof ▸ hnode) (by simp)
  | cons mark rest =>
    obtain ⟨rfl, hends⟩ := hrest mark rfl
    rw [List.foldlM_cons] at hsteps
    obtain ⟨next, hnext, hsteps⟩ := bind_eq_ok.mp hsteps
    obtain ⟨-, -, moved, hmoved, rfl⟩ := step_eq_ok.mp hnext
    rw [hstatement] at hmoved
    simp only [State.inside, hbrackets] at hmoved
    rcases kind_of_advance_eq_none hends with hkind | hkind | hkind <;>
      simp only [hkind] at hmoved
    · -- a semicolon: the statement is a node by itself
      obtain ⟨node, hnode, hmoved⟩ := bind_eq_ok.mp hmoved
      cases hmoved
      obtain rfl : node = found :=
        eq_of_pushed hfinish hfound hsteps houter (by simp [State.push, hnodes])
      refine .statement [] hbegins hbalanced (hof ▸ hnode) ?_
      rintro other ⟨⟩
      exact ⟨rfl, hkind⟩
    · -- an opening brace: the node is there when the body is closed
      cases hmoved
      obtain ⟨inner, after, rfl⟩ :=
        exists_eq_close hfinish hfound hsteps (by rw [State.openBody, houter]) hnodes
      have hheading : statement.heading = (statementOf start stmt).heading := by rw [hof]
      exact .body rest inner after hbegins hbalanced hkind hheading
    · -- a closing brace has nothing to close here
      obtain ⟨settled, hsettled, hmoved⟩ := bind_eq_ok.mp hmoved
      rw [State.settle, hstatement] at hsettled
      obtain ⟨node, -, hsettled⟩ := bind_eq_ok.mp hsettled
      cases hsettled
      exact absurd hmoved (closeBody_ne_ok houter)

variable (hstatement : state.statement = none)
include hstatement

/-- The first node, where a token begins a statement: the statement goes on as far as it can,
and what ends it makes the node. -/
theorem FirstNode.of_begins {token : Token} (hbegins : beginsStatement token.kind)
    (hsteps : (token :: toks).foldlM step state = .ok last) : FirstNode (token :: toks) found := by
  obtain ⟨stmt, rest, brackets, hsplit, hstmt, hbalanced, hrest⟩ := exists_begins hbegins toks
  have hclosed := closed_of_steps hsteps
  rw [hsplit] at hsteps hclosed ⊢
  rw [List.foldlM_append, steps_of_begins hstmt
    (fun other hother => hclosed other (List.mem_append_left _ hother)) hbalanced hstatement]
    at hsteps
  let begun : State := { state with
    statement := some (statementOf state.offset stmt)
    offset := state.offset + (stmt.flatMap Token.text).length }
  have hbegun : begun.outer = [] ∧ begun.frame.nodes = [] := ⟨houter, hnodes⟩
  exact .of_begun hfinish hfound hbegun.1 hbegun.2 rfl rfl hstmt hbalanced hrest hsteps

/-- Any other token is skipped, and leaves nothing behind but its text in front of the next
node, or makes the first node. -/
theorem FirstNode.of_between {next : State} {token : Token} (hbegins : ¬beginsStatement token.kind)
    (hnext : step state token = .ok next) (hsteps : toks.foldlM step next = .ok last) :
    ((token.kind = .space ∨ token.kind = .semicolon) ∧ next.statement = none ∧
      next.outer = [] ∧ next.frame.nodes = []) ∨ FirstNode (token :: toks) found := by
  obtain ⟨-, -, moved, hmoved, rfl⟩ := step_eq_ok.mp hnext
  rw [hstatement] at hmoved
  change state.between token = .ok moved at hmoved
  unfold State.between at hmoved
  split at hmoved
  · next hkind =>
    cases hmoved
    exact .inl ⟨.inl hkind, hstatement, houter, hnodes⟩
  · next hkind =>
    cases hmoved
    exact .inl ⟨.inr hkind, hstatement, houter, hnodes⟩
  · exact absurd hmoved (closeBody_ne_ok houter)
  · next hkind =>
    cases hmoved
    obtain rfl : commentOf state.before token = found :=
      eq_of_pushed hfinish hfound hsteps houter (by simp [State.push, hnodes])
    exact .inr (.comment toks state.before hkind)
  · -- a body that has no heading
    cases hmoved
    obtain ⟨inner, after, rfl⟩ :=
      exists_eq_close hfinish hfound hsteps (by rw [State.openBody, houter]) hnodes
    exact .inr (.bare toks inner after rfl)
  · exact absurd hbegins (by cases hkind : token.kind <;> simp_all [beginsStatement])

end

/-- **A style sheet starts with the node that its first tokens make**, white space and
semicolons in front of them apart. -/
theorem exists_firstNode {found : Node} (hsteps : toks.foldlM step state = .ok last)
    (hfinish : finish last = .ok sheet) (hstatement : state.statement = none)
    (houter : state.outer = []) (hnodes : state.frame.nodes = [])
    (hfound : sheet.nodes.head? = some found) :
    ∃ skips rest, toks = skips ++ rest ∧
      (∀ token ∈ skips, token.kind = .space ∨ token.kind = .semicolon) ∧ FirstNode rest found := by
  induction toks generalizing state with
  | nil =>
    exact (false_of_finish hfinish hfound houter hnodes (Except.ok.inj hsteps) hstatement).elim
  | cons token toks ih =>
    by_cases hbegins : beginsStatement token.kind
    · exact ⟨[], _, rfl, by simp,
        .of_begins hfinish hfound houter hnodes hstatement hbegins hsteps⟩
    rw [List.foldlM_cons] at hsteps
    obtain ⟨next, hnext, hsteps⟩ := bind_eq_ok.mp hsteps
    rcases FirstNode.of_between hfinish hfound houter hnodes hstatement hbegins hnext hsteps with
      ⟨hkind, hstatement, houter, hnodes⟩ | hfirst
    · obtain ⟨skips, rest, rfl, hskips, hfirst⟩ := ih hsteps hstatement houter hnodes
      exact ⟨token :: skips, rest, rfl, List.forall_mem_cons.mpr ⟨hkind, hskips⟩, hfirst⟩
    · exact ⟨[], _, rfl, by simp, hfirst⟩

end Reader

end Restyle.Css
