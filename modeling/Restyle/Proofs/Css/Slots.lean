import Restyle.Proofs.Css.Alone

/-!
# Nothing hides in a slot

The slots of a tree that was read are there so that it can be printed as it was laid out, and an
edit of a value or of a selector leaves them alone. It may do so because no slot holds anything
that means something. This is `Restyle.Css.Node.IsTidy`: a slot holds white space, with stray
semicolons in front of a node and at the end of a body, and the slot between a property and its
value one colon.

White space is not the same everywhere. Where the reader cuts between two tokens it is that of
the tokens (`Restyle.Css.IsGap`, `Restyle.Css.IsFiller`). Where it trims the parts of one
statement, which is behind the name of an at-rule and around a colon, it is what counts as blank
in a text (`Restyle.Css.IsBlankText`).

`Restyle.Css.Sheet.written` writes all slots, one behind the other, whether or not a semicolon
follows; this is the text that was read (`Restyle.Css.written_ofString`). The slot in front of a
semicolon is empty where there is no semicolon, and only the last statement of a container may
be without one, which is why `Restyle.Css.Node.IsTidy` depends on it.
-/

namespace Restyle.Css

open Restyle.Text (isBlank trimStart trimEnd)

/-! ### Writing all slots -/

mutual

/-- All slots and all parts of a node in their order, with the semicolon of a statement that is
terminated. -/
def Node.written (terminated : Bool) : Node → List Char
  | .comment text layout => slot layout.before ++ ['/', '*'] ++ text.toList ++ ['*', '/']
  | .declaration property value layout =>
    slot layout.before ++ property.toList ++ slot layout.between ++ value.toList ++
      slot layout.after ++ (if terminated then [';'] else [])
  | .statement name params layout =>
    slot layout.before ++ atRuleSource name params layout ++ slot layout.between ++
      (if terminated then [';'] else [])
  | .block name params nodes layout =>
    slot layout.before ++ atRuleSource name params layout ++ slot layout.between ++ ['\x7b'] ++
      writtenNodes (layout.semicolon.getD true) nodes ++ slot layout.after ++ ['\x7d']
  | .rule selector nodes layout =>
    slot layout.before ++ selector.toList ++ slot layout.between ++ ['\x7b'] ++
      writtenNodes (layout.semicolon.getD true) nodes ++ slot layout.after ++ ['\x7d']

/-- The nodes of a container one behind the other: each statement is terminated that is not the
last node, and the last one if its container says so. -/
def writtenNodes (semicolon : Bool) : List Node → List Char
  | [] => []
  | node :: rest => node.written (!rest.isEmpty || semicolon) ++ writtenNodes semicolon rest

end

/-- All slots and all parts of a style sheet in their order. -/
def Sheet.written (sheet : Sheet) : List Char :=
  writtenNodes sheet.semicolon sheet.nodes ++ sheet.after.toList

/-! ### What slots hold -/

/-- Blanks alone. -/
def IsBlankText (cs : List Char) : Prop := ∀ c ∈ cs, isBlank c

/-- One colon, with blanks around it. -/
def IsColonText (cs : List Char) : Prop :=
  ∃ gap gap', cs = gap ++ ':' :: gap' ∧ IsBlankText gap ∧ IsBlankText gap'

/-- White space in front of a semicolon, and nothing at all where there is no semicolon. -/
def IsTrailing (terminated : Bool) (cs : List Char) : Prop :=
  IsGap cs ∧ (terminated = false → cs = [])

/-- A slot was read, and what it holds is of a kind. -/
def Holds (kind : List Char → Prop) (read : Option String) : Prop :=
  ∃ text, read = some text ∧ kind text.toList

theorem holds_some {kind : List Char → Prop} {cs : List Char} (h : kind cs) :
    Holds kind (some (String.ofList cs)) :=
  ⟨_, rfl, by simpa using h⟩

/-- A text without blanks in front. -/
def StartsCleanly (cs : List Char) : Prop := ∀ c ∈ cs.head?, ¬isBlank c

/-- A text without blanks at its end. -/
def EndsCleanly (cs : List Char) : Prop := ∀ c ∈ cs.getLast?, ¬isBlank c

mutual

/-- **A node is tidy** if each of its slots was read, or there is no such slot in the node, if no
slot holds anything but what the module doc says, and if blanks are in the slots and not at the
ends of what they separate. -/
def Node.IsTidy (terminated : Bool) : Node → Prop
  | .comment _ layout =>
    Holds IsFiller layout.before ∧
      layout = { before := layout.before }
  | .declaration property value layout =>
    Holds IsFiller layout.before ∧ Holds IsColonText layout.between ∧
      Holds (IsTrailing terminated) layout.after ∧
      layout = { before := layout.before, between := layout.between, after := layout.after } ∧
      EndsCleanly property.toList ∧ StartsCleanly value.toList
  | .statement _ params layout =>
    Holds IsFiller layout.before ∧ Holds IsBlankText layout.afterName ∧
      Holds (IsTrailing terminated) layout.between ∧
      layout = { before := layout.before, afterName := layout.afterName,
                 between := layout.between } ∧
      StartsCleanly params.toList
  | .block _ params nodes layout =>
    Holds IsFiller layout.before ∧ Holds IsBlankText layout.afterName ∧
      Holds IsGap layout.between ∧ Holds IsFiller layout.after ∧ StartsCleanly params.toList ∧
      ∃ semicolon, layout.semicolon = some semicolon ∧ AreTidy semicolon nodes
  | .rule _ nodes layout =>
    Holds IsFiller layout.before ∧ layout.afterName = none ∧
      Holds IsGap layout.between ∧ Holds IsFiller layout.after ∧
      ∃ semicolon, layout.semicolon = some semicolon ∧ AreTidy semicolon nodes

/-- The nodes of a container are tidy. -/
def AreTidy (semicolon : Bool) : List Node → Prop
  | [] => True
  | node :: rest => node.IsTidy (!rest.isEmpty || semicolon) ∧ AreTidy semicolon rest

end

/-- The last node is the only one without a semicolon. -/
theorem areTidy_append {semicolon : Bool} {nodes : List Node} {last : Node} :
    AreTidy semicolon (nodes ++ [last]) ↔
      AreTidy true nodes ∧ last.IsTidy semicolon := by
  induction nodes with
  | nil => simp [AreTidy]
  | cons node rest ih =>
    have hrest : (rest ++ [last]).isEmpty = false := by cases rest <;> rfl
    simp [AreTidy, ih, hrest, and_assoc]

/-- The slot in front of a semicolon that is not there. -/
theorem Holds.trailing {terminated : Bool} {read : Option String}
    (h : Holds (IsTrailing terminated) read) :
    slot read ++ (if terminated then [';'] else []) =
      if terminated then slot read ++ [';'] else [] := by
  obtain ⟨text, rfl, -, hempty⟩ := h
  cases terminated with
  | true => rfl
  | false => simpa using hempty rfl

mutual

/-- **A tidy node was read from all its slots.** -/
theorem Node.IsTidy.written_eq_source {terminated : Bool} :
    ∀ {node : Node}, node.IsTidy terminated → node.written terminated = node.source terminated
  | .comment text layout, _ => by
    simp [Node.written, Node.source]
  | .declaration property value layout, h => by
    obtain ⟨-, -, htrailing, -⟩ := h
    rw [Node.written, Node.source, ← htrailing.trailing]
    simp
  | .statement name params layout, h => by
    obtain ⟨-, -, htrailing, -⟩ := h
    rw [Node.written, Node.source, ← htrailing.trailing]
    simp
  | .block name params nodes layout, h => by
    obtain ⟨-, -, -, -, -, semicolon, hsemicolon, hnodes⟩ := h
    have hbody := AreTidy.written_eq_source hnodes
    simp [Node.written, Node.source, hsemicolon, hbody]
  | .rule selector nodes layout, h => by
    obtain ⟨-, -, -, -, semicolon, hsemicolon, hnodes⟩ := h
    have hbody := AreTidy.written_eq_source hnodes
    simp [Node.written, Node.source, hsemicolon, hbody]

/-- The same for the nodes of a container. -/
theorem AreTidy.written_eq_source {semicolon : Bool} :
    ∀ {nodes : List Node}, AreTidy semicolon nodes →
      writtenNodes semicolon nodes = sourceNodes semicolon nodes
  | [], _ => rfl
  | node :: rest, h => by
    rw [writtenNodes, sourceNodes, h.1.written_eq_source, h.2.written_eq_source]

end

namespace Reader

/-! ### Statements and bodies -/

/-- **A finished statement makes a tidy node.** -/
theorem Statement.IsCut.isTidy_nodeOf {statement : Statement} (h : statement.IsCut)
    {before trailing : List Char} (hbefore : IsFiller before) {terminated : Bool}
    (htrailing : IsTrailing terminated trailing) {node : Node}
    (hnode : nodeOf before statement trailing = .ok node) : node.IsTidy terminated := by
  unfold nodeOf at hnode
  split at hnode
  · next length hkeyword =>
    cases hnode
    obtain ⟨rest, htext, hlength⟩ := h.keyword length hkeyword
    obtain ⟨-, hblanks, hparams⟩ := splitKeyword_eq htext hlength rfl
    exact ⟨holds_some hbefore, ⟨_, rfl, hblanks⟩, holds_some htrailing, rfl, hparams⟩
  · split at hnode
    · next n hcolon =>
      cases hnode
      obtain ⟨front, back, htext, rfl⟩ := h.colon n hcolon
      obtain ⟨gap, gap', -, -, hgap, hgap', hdeclaration⟩ :=
        declarationOf_eq before front back trailing
      rw [htext, hdeclaration]
      refine ⟨holds_some hbefore, holds_some ⟨gap, gap', rfl, hgap, hgap'⟩, holds_some htrailing,
        rfl, ?_, ?_⟩
      · rw [String.toList_ofList]
        exact Text.not_isBlank_getLast?_trimEnd front
      · rw [String.toList_ofList]
        exact Text.not_isBlank_head?_trimStart back
    · cases hnode

/-- The white space behind the name of an at-rule is all that is in front of its parameters. -/
def Heading.IsTidy : Heading → Prop
  | .rule _ => True
  | .atRule _ afterName params => IsBlankText afterName.toList ∧ StartsCleanly params.toList

/-- A body that is open. -/
structure Opening.IsTidy (opening : Opening) : Prop where
  before : IsFiller opening.before.toList
  heading : opening.heading.IsTidy
  between : IsGap opening.between.toList

theorem Statement.IsCut.isTidy_heading {statement : Statement} (h : statement.IsCut) :
    statement.heading.IsTidy := by
  cases hheading : statement.heading with
  | rule selector => trivial
  | atRule name afterName params => exact (h.of_atRule hheading).2

/-- **A body that is closed is a tidy node.** -/
theorem Opening.IsTidy.isTidy_close {opening : Opening} (h : opening.IsTidy) {frame : Frame}
    (hnodes : AreTidy frame.semicolon frame.nodes) {after : List Char} (hafter : IsFiller after)
    (terminated : Bool) : (opening.close frame after).IsTidy terminated := by
  have hheading := h.heading
  unfold Opening.close
  cases hopening : opening.heading with
  | rule selector =>
    exact ⟨⟨_, rfl, h.before⟩, rfl, ⟨_, rfl, h.between⟩, holds_some hafter, _, rfl, hnodes⟩
  | atRule name afterName params =>
    rw [hopening] at hheading
    exact ⟨⟨_, rfl, h.before⟩, ⟨_, rfl, hheading.1⟩, ⟨_, rfl, h.between⟩, holds_some hafter,
      hheading.2, _, rfl, hnodes⟩

/-! ### The invariant -/

/-- **What the reader has read is tidy.** -/
structure State.IsTidy (state : State) : Prop where
  frame : AreTidy true state.frame.nodes
  outer : ∀ pair ∈ state.outer, pair.1.IsTidy ∧ AreTidy true pair.2.nodes
  before : IsFiller state.before
  statement : ∀ statement, state.statement = some statement → statement.IsCut

theorem State.IsTidy.initial : State.IsTidy {} where
  frame := trivial
  outer := by simp
  before := by simp [IsFiller]
  statement := by simp

section Steps

variable {state next : State} {statement : Statement} {token : Token}

/-- One more node, between two statements. -/
theorem State.IsTidy.push (h : state.IsTidy) {node : Node} (hnode : node.IsTidy true) :
    (state.push node).IsTidy where
  frame := areTidy_append.mpr ⟨h.frame, hnode⟩
  outer := h.outer
  before := by simp [State.push, IsFiller]
  statement := h.statement

/-- A body is closed whatever its last statement ends with. -/
theorem isTidy_closeBody (hframe : AreTidy state.frame.semicolon state.frame.nodes)
    (houter : ∀ pair ∈ state.outer, pair.1.IsTidy ∧ AreTidy true pair.2.nodes)
    (hbefore : IsFiller state.before) (hnone : state.statement = none)
    (hclose : state.closeBody = .ok next) : next.IsTidy := by
  unfold State.closeBody at hclose
  split at hclose
  · cases hclose
  · next opening frame outer hcons =>
    cases hclose
    rw [hcons] at houter
    obtain ⟨hopening, hnodes⟩ := houter _ List.mem_cons_self
    refine State.IsTidy.push ⟨hnodes, fun pair hpair => ?_, ?_, ?_⟩
      (hopening.isTidy_close hframe hbefore true)
    · exact houter pair (List.mem_cons_of_mem _ hpair)
    · simp [IsFiller]
    · simp [hnone]

/-- Where a body is opened, what is in front of its brace is in slots of the opening. -/
theorem State.IsTidy.openBody (h : state.IsTidy) (hcut : statement.IsCut) :
    (state.openBody statement).IsTidy := by
  have hopening : Opening.IsTidy ⟨statement.heading, String.ofList state.before,
      String.ofList statement.gap, state.offset⟩ :=
    ⟨by simpa using h.before, hcut.isTidy_heading, by simpa using hcut.space⟩
  refine ⟨trivial, ?_, by simp [State.openBody, IsFiller], by simp [State.openBody]⟩
  intro pair hpair
  rcases List.mem_cons.mp hpair with rfl | hpair
  · exact ⟨hopening, h.frame⟩
  · exact h.outer pair hpair

/-- The last statement of a container is without its semicolon, and the slot in front of that is
empty: the white space there is behind the statement. -/
theorem State.IsTidy.settle (h : state.IsTidy) (hw : state.IsWellFormed)
    (hsettle : state.settle = .ok next) :
    AreTidy next.frame.semicolon next.frame.nodes ∧ next.outer = state.outer ∧
      IsFiller next.before ∧ next.statement = none := by
  unfold State.settle at hsettle
  split at hsettle
  · next hnone =>
    cases hsettle
    rw [hw.frame.semicolon]
    exact ⟨h.frame, rfl, h.before, hnone⟩
  · next statement hsome =>
    obtain ⟨node, hnode, hsettle⟩ := bind_eq_ok.mp hsettle
    cases hsettle
    have hcut := h.statement _ hsome
    have hempty : IsTrailing false [] := ⟨by simp [IsGap], fun _ => rfl⟩
    exact ⟨areTidy_append.mpr ⟨h.frame, hcut.isTidy_nodeOf h.before hempty hnode⟩, rfl,
      fun c hc => .inl (hcut.space c hc), rfl⟩

/-- A token between two statements that begins none. -/
theorem isTidy_between (h : state.IsTidy) (hw : state.IsWellFormed)
    (hnone : state.statement = none) (hfits : token.Fits) (hbegins : ¬beginsStatement token.kind)
    (hbetween : state.between token = .ok next) : next.IsTidy := by
  unfold State.between at hbetween
  split at hbetween
  · next hkind =>
    cases hbetween
    rw [Token.Fits, hkind] at hfits
    exact ⟨h.frame, h.outer, h.before.append fun c hc => .inl (hfits.2 c hc), h.statement⟩
  · next hkind =>
    cases hbetween
    rw [Token.Fits, hkind] at hfits
    have hsemicolon : IsFiller token.text := by simp [hfits, IsFiller]
    exact ⟨h.frame, h.outer, h.before.append hsemicolon, h.statement⟩
  · refine isTidy_closeBody ?_ h.outer h.before hnone hbetween
    rw [hw.frame.semicolon]
    exact h.frame
  · cases hbetween
    exact h.push ⟨holds_some h.before, rfl⟩
  · cases hbetween
    exact h.openBody ⟨.fresh _, by rintro n ⟨⟩, by simp [IsGap]⟩
  · exact absurd hbegins (by cases hkind : token.kind <;> simp_all [beginsStatement])

/-- A token that ends a statement. -/
theorem isTidy_inside (h : state.IsTidy) (hw : state.IsWellFormed)
    (hsome : state.statement = some statement) (hadvance : advance statement.brackets token = none)
    (hinside : state.inside statement token = .ok next) : next.IsTidy := by
  have hcut := h.statement statement hsome
  unfold advance at hadvance
  split at hadvance
  · cases hadvance
  next hbrackets =>
  split_ifs at hadvance with hends
  simp only [State.inside, hbrackets] at hinside
  rcases hends with hkind | hkind | hkind
  · -- a semicolon, with the gap of the statement in front of it
    simp only [hkind] at hinside
    obtain ⟨node, hnode, hinside⟩ := bind_eq_ok.mp hinside
    cases hinside
    have htrailing : IsTrailing true statement.gap := ⟨hcut.space, by simp⟩
    refine ⟨?_, h.outer, by simp [State.push, IsFiller], by simp⟩
    exact areTidy_append.mpr ⟨h.frame, hcut.isTidy_nodeOf h.before htrailing hnode⟩
  · -- an opening brace
    simp only [hkind] at hinside
    cases hinside
    exact h.openBody hcut
  · -- a closing brace, in front of which the statement is without its semicolon
    simp only [hkind] at hinside
    obtain ⟨settled, hsettled, hinside⟩ := bind_eq_ok.mp hinside
    obtain ⟨hframe, houter, hbefore, hnone⟩ := h.settle hw hsettled
    exact isTidy_closeBody hframe (houter ▸ h.outer) hbefore hnone hinside

/-- **Reading a token keeps everything tidy.** A token begins a statement, goes on with one, or
ends one; only what ends it fills the slots of a node. -/
theorem State.IsTidy.step (h : state.IsTidy) (hw : state.IsWellFormed) (hfits : token.Fits)
    (hstep : Reader.step state token = .ok next) : next.IsTidy := by
  obtain ⟨hstring, hcomment, moved, hmoved, hnext⟩ := step_eq_ok.mp hstep
  have hclosed : token.IsClosed := ⟨hstring, hcomment⟩
  cases hstatement : state.statement with
  | none =>
    by_cases hbegins : beginsStatement token.kind
    · rw [step_of_beginsStatement hstatement hclosed hbegins] at hstep
      cases hstep
      refine ⟨h.frame, h.outer, h.before, ?_⟩
      rintro statement ⟨⟩
      exact Statement.IsCut.next ⟨.fresh _, by rintro n ⟨⟩, by simp [IsGap]⟩ hfits
    · rw [hstatement] at hmoved
      have htidy := isTidy_between h hw hstatement hfits hbegins hmoved
      rw [hnext]
      exact ⟨htidy.frame, htidy.outer, htidy.before, htidy.statement⟩
  | some statement =>
    cases hadvance : advance statement.brackets token with
    | some brackets =>
      rw [step_of_advance hstatement hclosed hadvance] at hstep
      cases hstep
      refine ⟨h.frame, h.outer, h.before, ?_⟩
      rintro other ⟨⟩
      exact (h.statement statement hstatement).next hfits
    | none =>
      rw [hstatement] at hmoved
      have htidy := isTidy_inside h hw hstatement hadvance hmoved
      rw [hnext]
      exact ⟨htidy.frame, htidy.outer, htidy.before, htidy.statement⟩

end Steps

/-- **So does reading tokens**, one after the other. -/
theorem State.IsTidy.steps {tokens : List Token} (hfits : ∀ token ∈ tokens, token.Fits) :
    ∀ {state next : State}, state.IsTidy → state.IsWellFormed →
      tokens.foldlM Reader.step state = .ok next → next.IsTidy ∧ next.IsWellFormed := by
  induction tokens with
  | nil =>
    intro state next h hw hsteps
    cases hsteps
    exact ⟨h, hw⟩
  | cons token tokens ih =>
    intro state next h hw hsteps
    rw [List.foldlM_cons] at hsteps
    obtain ⟨middle, hmiddle, hsteps⟩ := bind_eq_ok.mp hsteps
    have htoken := hfits token List.mem_cons_self
    exact ih (fun other hother => hfits other (List.mem_cons_of_mem _ hother))
      (h.step hw htoken hmiddle) (State.source_of_step hw htoken hmiddle).1 hsteps

/-- A style sheet that is read is tidy. -/
theorem areTidy_ofTokens {tokens : List Token} (hfits : ∀ token ∈ tokens, token.Fits)
    {sheet : Sheet} (h : ofTokens tokens = .ok sheet) :
    AreTidy sheet.semicolon sheet.nodes ∧ IsFiller sheet.after.toList := by
  obtain ⟨state, hstate, hfinish⟩ := bind_eq_ok.mp h
  obtain ⟨htidy, hw⟩ := State.IsTidy.initial.steps hfits .initial hstate
  obtain ⟨settled, hsettled, hfinish⟩ := bind_eq_ok.mp hfinish
  obtain ⟨hframe, -, hbefore, -⟩ := htidy.settle hw hsettled
  split at hfinish
  · cases hfinish
  · cases hfinish
    exact ⟨hframe, by simpa using hbefore⟩

end Reader

/-! ### The partition -/

/-- **A style sheet that was read is its slots and parts, one behind the other, and its slots
hold nothing**: nothing but white space, stray semicolons and the colons of declarations. -/
theorem written_ofString {text : String} {sheet : Sheet} (h : Sheet.ofString text = .ok sheet) :
    sheet.written = text.toList ∧ AreTidy sheet.semicolon sheet.nodes ∧
      IsFiller sheet.after.toList := by
  obtain ⟨-, hsource⟩ := source_ofString h
  obtain ⟨htidy, hafter⟩ :
      AreTidy sheet.semicolon sheet.nodes ∧ IsFiller sheet.after.toList := by
    unfold Sheet.ofString at h
    split at h
    · next read hread =>
      cases h
      exact Reader.areTidy_ofTokens (fun token => fits_of_mem_tokens _) hread
    · cases h
  refine ⟨?_, htidy, hafter⟩
  calc sheet.written
      = sourceNodes sheet.semicolon sheet.nodes ++ sheet.after.toList := by
        rw [Sheet.written, htidy.written_eq_source]
    _ = text.toList := hsource

/-- White space that is not that of tokens: a vertical tab behind the name of an at-rule, and a
no-break space behind a colon. -/
theorem written_ofString_blanks :
    let text := "@a\x0b;b /* c */\x7b;d :\xa0e ; f:g \x7d"
    ∃ sheet, Sheet.ofString text = .ok sheet ∧ sheet.written = text.toList ∧
      AreTidy sheet.semicolon sheet.nodes := by
  intro text
  have hread : Sheet.ofString text = .ok
      ⟨[.statement "a" "" { before := some "", between := some "", afterName := some "\x0b" },
        .rule "b /* c */"
          [.declaration "d" "e"
            { before := some ";", between := some " :\xa0", after := some " " },
           .declaration "f" "g"
            { before := some " ", between := some ":", after := some "" }]
          { before := some "", between := some "", after := some " ",
            semicolon := some false }], "", true⟩ := by
    decide +kernel
  obtain ⟨hwritten, htidy, -⟩ := written_ofString hread
  exact ⟨_, hread, hwritten, htidy⟩

end Restyle.Css
