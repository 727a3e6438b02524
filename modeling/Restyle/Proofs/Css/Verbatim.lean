import Restyle.Css.Printer
import Restyle.Css.Reader
import Restyle.Proofs.Css.Tokens

/-!
# What is read is printed

A tree that was read and not edited prints the text it was read from, up to one thing.
White space behind the name of an at-rule is kept in a slot of its own, and the printer
writes that slot only in front of parameters. Where there are none, there is no such white
space either – unless it is white space for the trimming of parameters and none for the
tokenizer: a vertical tab, or a no-break space, is part of the statement then, trimmed off
its parameters, and not printed.

Two texts are compared. `Restyle.Css.sourceNodes` puts together all slots of a tree,
whatever the printer does with them, and this is what was read: the invariant
`Restyle.Css.Reader.State.source` of the reader is the text so far
(`Restyle.Css.Reader.State.source_of_step`), by one case for each thing a token can do.
`Restyle.Css.Node.lost` counts the characters that the printer leaves out of it.
-/

namespace Restyle.Css

open Restyle.Text (trimStart trimEnd dropEndWhile)

/-! ### The text that a tree was read from -/

/-- The text in a slot of a layout. -/
def slot (read : Option String) : List Char :=
  (read.getD "").toList

@[simp] theorem slot_some (s : String) : slot (some s) = s.toList := rfl

/-- The text of the name and the parameters of an at-rule. -/
def atRuleSource (name params : String) (layout : Layout) : List Char :=
  '@' :: (name.toList ++ slot layout.afterName ++ params.toList)

mutual

/-- The text that a node was read from, with what stands in front of it. -/
def Node.source (terminated : Bool) : Node → List Char
  | .comment text layout => slot layout.before ++ '/' :: '*' :: (text.toList ++ ['*', '/'])
  | .declaration property value layout =>
    slot layout.before ++ property.toList ++ slot layout.between ++ value.toList ++
      (if terminated then slot layout.after ++ [';'] else [])
  | .statement name params layout =>
    slot layout.before ++ atRuleSource name params layout ++
      (if terminated then slot layout.between ++ [';'] else [])
  | .block name params nodes layout =>
    slot layout.before ++ atRuleSource name params layout ++ slot layout.between ++
      '\x7b' :: (sourceNodes (layout.semicolon.getD true) nodes ++ slot layout.after ++ ['\x7d'])
  | .rule selector nodes layout =>
    slot layout.before ++ selector.toList ++ slot layout.between ++
      '\x7b' :: (sourceNodes (layout.semicolon.getD true) nodes ++ slot layout.after ++ ['\x7d'])

/-- The text that the nodes of a container were read from. -/
def sourceNodes (semicolon : Bool) : List Node → List Char
  | [] => []
  | node :: rest => node.source (!rest.isEmpty || semicolon) ++ sourceNodes semicolon rest

end

/-- In a container whose last statement ends with a semicolon, all nodes are alike. -/
theorem sourceNodes_true (nodes : List Node) :
    sourceNodes true nodes = nodes.flatMap (Node.source true) := by
  induction nodes with
  | nil => rfl
  | cons node rest ih => simp [sourceNodes, ih]

/-- Otherwise the last one is without its semicolon. -/
theorem sourceNodes_false_append (nodes : List Node) (last : Node) :
    sourceNodes false (nodes ++ [last]) =
      nodes.flatMap (Node.source true) ++ last.source false := by
  induction nodes with
  | nil => simp [sourceNodes]
  | cons node rest ih =>
    have h : (rest ++ [last]).isEmpty = false := by cases rest <;> rfl
    simp [sourceNodes, ih, h]

/-! ### What the printer leaves out -/

mutual

/-- The number of characters that the printer leaves out: white space behind the name of an
at-rule without parameters. -/
def Node.lost : Node → Nat
  | .block _ params nodes layout =>
    (if params.isEmpty then (slot layout.afterName).length else 0) + lostNodes nodes
  | .statement _ params layout => if params.isEmpty then (slot layout.afterName).length else 0
  | .rule _ nodes _ => lostNodes nodes
  | _ => 0

/-- The number of characters that the printer leaves out of the nodes of a container. -/
def lostNodes : List Node → Nat
  | [] => 0
  | node :: rest => node.lost + lostNodes rest

end

mutual

/-- Whether every slot of a node holds something that was read. -/
def Node.isLaidOut : Node → Bool
  | .comment _ layout => layout.before.isSome
  | .declaration _ _ layout =>
    layout.before.isSome && layout.between.isSome && layout.after.isSome
  | .statement _ _ layout =>
    layout.before.isSome && layout.afterName.isSome && layout.between.isSome
  | .block _ _ nodes layout =>
    layout.before.isSome && layout.afterName.isSome && layout.between.isSome &&
      layout.after.isSome && areLaidOut nodes
  | .rule _ nodes layout =>
    layout.before.isSome && layout.between.isSome && layout.after.isSome && areLaidOut nodes

/-- Whether every slot of the nodes of a container holds something that was read. -/
def areLaidOut : List Node → Bool
  | [] => true
  | node :: rest => node.isLaidOut && areLaidOut rest

end

theorem areLaidOut_append (xs ys : List Node) :
    areLaidOut (xs ++ ys) = (areLaidOut xs && areLaidOut ys) := by
  induction xs with
  | nil => rfl
  | cons x xs ih => simp [areLaidOut, ih, Bool.and_assoc]

/-- A slot that was read is printed as it was read. -/
theorem toList_getD_of_isSome {read : Option String} (h : read.isSome) (other : String) :
    (read.getD other).toList = slot read := by
  obtain ⟨s, rfl⟩ := Option.isSome_iff_exists.mp h
  rfl

/-- The parameters of an at-rule, with what is printed in front of them. -/
theorem length_parameters (params : String) {afterName : Option String}
    (h : afterName.isSome) :
    (if params.isEmpty then "" else afterName.getD " " ++ params).toList.length +
        (if params.isEmpty then (slot afterName).length else 0) =
      (slot afterName ++ params.toList).length := by
  by_cases hp : params.isEmpty
  · simp [String.isEmpty_iff.mp hp]
  · simp [hp, toList_getD_of_isSome h]

mutual

/-- What is printed of a node that was read, and what is left out, is as long as the text
that it was read from. -/
theorem Node.length_render (depth : Nat) (terminated : Bool) (default : String) :
    ∀ {node : Node}, node.isLaidOut →
      (node.layout.before.getD default ++ node.render depth terminated).toList.length + node.lost =
        (node.source terminated).length
  | .comment text layout, h => by
    simp only [Node.isLaidOut] at h
    simp [Node.layout, Node.render, Node.lost, Node.source, toList_getD_of_isSome h]
  | .declaration property value layout, h => by
    simp only [Node.isLaidOut, Bool.and_eq_true] at h
    obtain ⟨⟨hbefore, hbetween⟩, hafter⟩ := h
    cases terminated <;>
      simp [Node.layout, Node.render, Node.lost, Node.source, toList_getD_of_isSome hbefore,
        toList_getD_of_isSome hbetween, toList_getD_of_isSome hafter]
  | .statement name params layout, h => by
    simp only [Node.isLaidOut, Bool.and_eq_true] at h
    obtain ⟨⟨hbefore, hname⟩, hbetween⟩ := h
    have hparams := length_parameters params hname
    cases terminated <;>
      simp [Node.layout, Node.render, Node.lost, Node.source, atRuleSource,
        toList_getD_of_isSome hbefore, toList_getD_of_isSome hbetween] at hparams ⊢ <;>
      omega
  | .block name params nodes layout, h => by
    simp only [Node.isLaidOut, Bool.and_eq_true] at h
    obtain ⟨⟨⟨⟨hbefore, hname⟩, hbetween⟩, hafter⟩, hnodes⟩ := h
    have hparams := length_parameters params hname
    have hbody := length_renderNodes (depth + 1) 0 (layout.semicolon.getD true) hnodes
    simp [Node.layout, Node.render, Node.lost, Node.source, atRuleSource,
      toList_getD_of_isSome hbefore, toList_getD_of_isSome hbetween,
      toList_getD_of_isSome hafter] at hparams hbody ⊢
    omega
  | .rule selector nodes layout, h => by
    simp only [Node.isLaidOut, Bool.and_eq_true] at h
    obtain ⟨⟨⟨hbefore, hbetween⟩, hafter⟩, hnodes⟩ := h
    have hbody := length_renderNodes (depth + 1) 0 (layout.semicolon.getD true) hnodes
    simp [Node.layout, Node.render, Node.lost, Node.source, toList_getD_of_isSome hbefore,
      toList_getD_of_isSome hbetween, toList_getD_of_isSome hafter] at hbody ⊢
    omega

/-- The same for the nodes of a container. -/
theorem length_renderNodes (depth index : Nat) (semicolon : Bool) :
    ∀ {nodes : List Node}, areLaidOut nodes →
      (renderNodes depth index semicolon nodes).toList.length + lostNodes nodes =
        (sourceNodes semicolon nodes).length
  | [], _ => rfl
  | node :: rest, h => by
    simp only [areLaidOut, Bool.and_eq_true] at h
    have hnode := Node.length_render depth (!rest.isEmpty || semicolon)
      (defaultBefore depth index) h.1
    have hrest := length_renderNodes depth (index + 1) semicolon h.2
    simp [renderNodes, sourceNodes, lostNodes] at hnode hrest ⊢
    omega

end

/-- Parameters are printed with what was read in front of them, unless something is left
out. -/
theorem toList_parameters {params : String} {afterName : Option String} (h : afterName.isSome)
    (hlost : (if params.isEmpty then (slot afterName).length else 0) = 0) :
    (if params = "" then "" else afterName.getD " " ++ params).toList =
      slot afterName ++ params.toList := by
  by_cases hp : params = ""
  · simp [hp] at hlost
    simp [hp, hlost]
  · simp [hp, toList_getD_of_isSome h]

mutual

/-- A node that was read is printed as it was read, if nothing of it is left out. -/
theorem Node.toList_render (depth : Nat) (terminated : Bool) (default : String) :
    ∀ {node : Node}, node.isLaidOut → node.lost = 0 →
      (node.layout.before.getD default ++ node.render depth terminated).toList =
        node.source terminated
  | .comment text layout, h, _ => by
    simp only [Node.isLaidOut] at h
    simp [Node.layout, Node.render, Node.source, toList_getD_of_isSome h]
  | .declaration property value layout, h, _ => by
    simp only [Node.isLaidOut, Bool.and_eq_true] at h
    obtain ⟨⟨hbefore, hbetween⟩, hafter⟩ := h
    cases terminated <;>
      simp [Node.layout, Node.render, Node.source, toList_getD_of_isSome hbefore,
        toList_getD_of_isSome hbetween, toList_getD_of_isSome hafter]
  | .statement name params layout, h, hlost => by
    simp only [Node.isLaidOut, Bool.and_eq_true] at h
    obtain ⟨⟨hbefore, hname⟩, hbetween⟩ := h
    have hparams := toList_parameters hname hlost
    cases terminated <;>
      simp [Node.layout, Node.render, Node.source, atRuleSource, hparams,
        toList_getD_of_isSome hbefore, toList_getD_of_isSome hbetween]
  | .block name params nodes layout, h, hlost => by
    simp only [Node.isLaidOut, Bool.and_eq_true] at h
    obtain ⟨⟨⟨⟨hbefore, hname⟩, hbetween⟩, hafter⟩, hnodes⟩ := h
    simp only [Node.lost, Nat.add_eq_zero_iff] at hlost
    have hparams := toList_parameters hname hlost.1
    have hbody := toList_renderNodes (depth + 1) 0 (layout.semicolon.getD true) hnodes hlost.2
    simp [Node.layout, Node.render, Node.source, atRuleSource, hparams, hbody,
      toList_getD_of_isSome hbefore, toList_getD_of_isSome hbetween,
      toList_getD_of_isSome hafter]
  | .rule selector nodes layout, h, hlost => by
    simp only [Node.isLaidOut, Bool.and_eq_true] at h
    obtain ⟨⟨⟨hbefore, hbetween⟩, hafter⟩, hnodes⟩ := h
    have hbody := toList_renderNodes (depth + 1) 0 (layout.semicolon.getD true) hnodes hlost
    simp [Node.layout, Node.render, Node.source, hbody, toList_getD_of_isSome hbefore,
      toList_getD_of_isSome hbetween, toList_getD_of_isSome hafter]

/-- The same for the nodes of a container. -/
theorem toList_renderNodes (depth index : Nat) (semicolon : Bool) :
    ∀ {nodes : List Node}, areLaidOut nodes → lostNodes nodes = 0 →
      (renderNodes depth index semicolon nodes).toList = sourceNodes semicolon nodes
  | [], _, _ => rfl
  | node :: rest, h, hlost => by
    simp only [areLaidOut, Bool.and_eq_true] at h
    simp only [lostNodes, Nat.add_eq_zero_iff] at hlost
    have hnode := Node.toList_render depth (!rest.isEmpty || semicolon)
      (defaultBefore depth index) h.1 hlost.1
    have hrest := toList_renderNodes depth (index + 1) semicolon h.2 hlost.2
    rw [renderNodes, sourceNodes, String.toList_append, hnode, hrest]

end

/-! ### Statements -/

namespace Reader

/-- What is known of the text of a statement that has begun. -/
structure Statement.IsWellFormed (statement : Statement) : Prop where
  /-- A keyword is the `@` in front and something behind it. -/
  keyword : ∀ n, statement.keyword = some n → ∃ rest, statement.text = '@' :: rest ∧ 0 < n
  /-- There is no white space behind an open bracket that is not part of the text. -/
  gap : statement.brackets ≠ [] → statement.gap = []

theorem Statement.IsWellFormed.fresh (start : Nat) :
    Statement.IsWellFormed { start } where
  keyword n h := by simp at h
  gap _ := rfl

/-- A token inside brackets keeps a statement well-formed. -/
theorem Statement.IsWellFormed.addInside {statement : Statement} (h : statement.IsWellFormed)
    {closer : Kind} {outer : List Kind} (hb : statement.brackets = closer :: outer)
    (token : Token) : (statement.addInside closer outer token).IsWellFormed where
  keyword n hn := by
    obtain ⟨rest, hrest, hpos⟩ := h.keyword n hn
    exact ⟨rest ++ token.text, by simp [Statement.addInside, hrest], hpos⟩
  gap _ := h.gap (by simp [hb])

/-- So does a token at top level. -/
theorem Statement.IsWellFormed.add {statement : Statement} (h : statement.IsWellFormed)
    {token : Token} (hfits : token.Fits) : (statement.add token).IsWellFormed where
  keyword n hn := by
    simp only [Statement.add] at hn
    split_ifs at hn with hkey
    · obtain ⟨hkind, hempty⟩ := hkey
      simp only [Token.Fits, hkind] at hfits
      obtain ⟨rest, hrest⟩ := hfits
      refine ⟨rest, ?_, ?_⟩
      · simp [Statement.add, hrest, List.isEmpty_iff.mp hempty]
      · cases hn
        simp [hrest]
    · obtain ⟨rest, hrest, hpos⟩ := h.keyword n hn
      exact ⟨rest ++ statement.gap ++ token.text, by simp [Statement.add, hrest], hpos⟩
  gap _ := rfl

/-! ### Nodes of statements -/

/-- A suffix, and what is in front of it. -/
theorem take_append_of_suffix {α : Type} {xs ys : List α} (h : ys <:+ xs) :
    xs.take (xs.length - ys.length) ++ ys = xs := by
  obtain ⟨front, rfl⟩ := h
  simp

/-- A piece in front, a piece at the end, and what is between them. -/
theorem pieces_append {α : Type} {xs front rear : List α} {n : Nat} (hfront : front <+: xs.take n)
    (hrear : rear <:+ xs.drop (n + 1)) :
    front ++ (xs.take (xs.length - rear.length)).drop front.length ++ rear = xs := by
  obtain ⟨front', hfront⟩ := hfront
  obtain ⟨rear', hrear⟩ := hrear
  obtain ⟨middle, rfl⟩ : ∃ middle, xs = front ++ middle ++ rear := by
    refine ⟨front' ++ (xs.drop n).take 1 ++ rear', ?_⟩
    calc xs = xs.take n ++ ((xs.drop n).take 1 ++ (xs.drop n).drop 1) := by
          rw [List.take_append_drop, List.take_append_drop]
      _ = front ++ (front' ++ (xs.drop n).take 1 ++ rear') ++ rear := by
          rw [List.drop_drop, ← hfront, ← hrear]
          simp
  have hlength : (front ++ middle ++ rear).length - rear.length = (front ++ middle).length := by
    simp only [List.length_append]
    omega
  rw [hlength, List.take_left, List.drop_left]

/-- The pieces of an at-rule make up its text. -/
theorem source_splitKeyword {text rest : List Char} {n : Nat} (htext : text = '@' :: rest)
    (hn : 0 < n) :
    '@' :: ((splitKeyword text n).1.toList ++ (splitKeyword text n).2.1.toList ++
      (splitKeyword text n).2.2.toList) = text := by
  obtain ⟨n, rfl⟩ : ∃ m, n = m + 1 := ⟨n - 1, by omega⟩
  subst htext
  have hsplit := take_append_of_suffix
    (List.dropWhile_suffix (l := rest.drop n) Text.isBlank)
  simp only [splitKeyword, trimStart, String.toList_ofList, List.take_succ_cons,
    List.drop_succ_cons, List.drop_zero, List.append_assoc, hsplit, List.take_append_drop]

/-- So do the pieces of a declaration. -/
theorem source_declarationOf (before text trailing : List Char) (colon : Nat)
    (terminated : Bool) :
    (declarationOf before text trailing colon).source terminated =
      before ++ text ++ (if terminated then trailing ++ [';'] else []) := by
  have hfront : dropEndWhile Text.isBlank (text.take colon) <+: text.take colon :=
    ⟨_, Text.dropEndWhile_append_takeEndWhile Text.isBlank (text.take colon)⟩
  have hpieces := pieces_append hfront
    (List.dropWhile_suffix (l := text.drop (colon + 1)) Text.isBlank)
  rw [declarationOf]
  simp only [Node.source, slot_some, String.toList_ofList, trimEnd, trimStart, List.append_assoc]
    at hpieces ⊢
  rw [← List.append_assoc (dropEndWhile _ _), ← List.append_assoc (dropEndWhile _ _ ++ _),
    List.append_assoc (dropEndWhile _ _), hpieces]

/-- **A finished statement makes a node that was read from its text**, with or without the
semicolon that ends it. -/
theorem source_nodeOf {before trailing : List Char} {statement : Statement} {node : Node}
    (hs : statement.IsWellFormed) (h : nodeOf before statement trailing = .ok node)
    (terminated : Bool) :
    node.isLaidOut ∧ node.source terminated =
      before ++ statement.text ++ (if terminated then trailing ++ [';'] else []) := by
  unfold nodeOf at h
  split at h
  · next n hn =>
    obtain ⟨rest, hrest, hpos⟩ := hs.keyword n hn
    have hsource := source_splitKeyword hrest hpos
    cases h
    refine ⟨rfl, ?_⟩
    simp only [Node.source, atRuleSource, slot_some, splitKeyword, String.toList_ofList]
      at hsource ⊢
    rw [hsource]
  · split at h
    · cases h
      exact ⟨rfl, source_declarationOf _ _ _ _ terminated⟩
    · cases h

/-! ### States -/

/-- The text of a container that is still open. -/
def Frame.source (frame : Frame) : List Char :=
  frame.nodes.flatMap (Node.source true)

/-- The text of what a body belongs to. -/
def Heading.source : Heading → List Char
  | .rule selector => selector.toList
  | .atRule name afterName params => '@' :: (name.toList ++ afterName.toList ++ params.toList)

/-- The text of an opening, its brace included. -/
def Opening.source (opening : Opening) : List Char :=
  opening.before.toList ++ opening.heading.source ++ opening.between.toList ++ ['\x7b']

/-- The text in front of the innermost open container. -/
def outerSource : List (Opening × Frame) → List Char
  | [] => []
  | (opening, frame) :: outer => outerSource outer ++ frame.source ++ opening.source

/-- The text of the statement that has begun. -/
def State.pending (state : State) : List Char :=
  match state.statement with
  | some statement => statement.text ++ statement.gap
  | none => []

/-- **The text that a state has read.** -/
def State.source (state : State) : List Char :=
  outerSource state.outer ++ state.frame.source ++ state.before ++ state.pending

/-- A container that is still open: none of its statements is without its semicolon. -/
structure Frame.IsOpen (frame : Frame) : Prop where
  semicolon : frame.semicolon = true
  laidOut : areLaidOut frame.nodes

/-- What is known of every state that the reader reaches. -/
structure State.IsWellFormed (state : State) : Prop where
  frame : state.frame.IsOpen
  outer : ∀ pair ∈ state.outer, pair.2.IsOpen
  statement : ∀ statement, state.statement = some statement → statement.IsWellFormed

theorem State.IsWellFormed.initial : State.IsWellFormed {} where
  frame := ⟨rfl, rfl⟩
  outer := by simp
  statement := by simp

/-- One more node in a container. -/
theorem Frame.IsOpen.push {frame : Frame} (h : frame.IsOpen) {node : Node}
    (hnode : node.isLaidOut) : Frame.IsOpen { frame with nodes := frame.nodes ++ [node] } where
  semicolon := h.semicolon
  laidOut := by simp [areLaidOut_append, h.laidOut, areLaidOut, hnode]

/-- One more node in the open container, between two statements. -/
theorem State.IsWellFormed.push {state : State} (h : state.IsWellFormed) {node : Node}
    (hnode : node.isLaidOut) : (state.push node).IsWellFormed where
  frame := h.frame.push hnode
  outer := h.outer
  statement := h.statement

/-- A statement that has begun or goes on, in the open container. -/
theorem State.IsWellFormed.withStatement {state : State} (h : state.IsWellFormed)
    {statement : Statement} (hw : statement.IsWellFormed) :
    State.IsWellFormed { state with statement := some statement } where
  frame := h.frame
  outer := h.outer
  statement := by
    rintro _ ⟨⟩
    exact hw

/-- The text that one more node adds. -/
theorem State.source_push {state : State} (hs : state.statement = none) (node : Node)
    {text : List Char} (hnode : node.source true = state.before ++ text) :
    (state.push node).source = state.source ++ text := by
  simp [State.source, State.push, State.pending, Frame.source, hs, hnode]

/-! ### What a token does -/

/-- A computation that goes well has gone well up to each of its steps. -/
theorem bind_eq_ok {ε α β : Type} {x : Except ε α} {f : α → Except ε β} {b : β} :
    (x >>= f) = .ok b ↔ ∃ a, x = .ok a ∧ f a = .ok b := by
  cases x with
  | error e => simp [bind, Except.bind]
  | ok a => simp [bind, Except.bind]

/-- **A statement that nothing ends is kept**, as the last one of its container. -/
theorem source_settle {state next : State} (hs : state.IsWellFormed)
    (h : state.settle = .ok next) :
    next.statement = none ∧ next.outer = state.outer ∧ next.offset = state.offset ∧
      areLaidOut next.frame.nodes ∧
      sourceNodes next.frame.semicolon next.frame.nodes ++ next.before =
        state.frame.source ++ state.before ++ state.pending := by
  unfold State.settle at h
  split at h
  · next hnone =>
    cases h
    refine ⟨hnone, rfl, rfl, hs.frame.laidOut, ?_⟩
    simp [hs.frame.semicolon, sourceNodes_true, Frame.source, State.pending, hnone]
  · next statement hsome =>
    obtain ⟨node, hnode, h⟩ := bind_eq_ok.mp h
    cases h
    obtain ⟨hlaid, hsource⟩ := source_nodeOf (hs.statement _ hsome) hnode false
    refine ⟨rfl, rfl, rfl, (hs.frame.push hlaid).laidOut, ?_⟩
    simp [State.push, sourceNodes_false_append, Frame.source, State.pending, hsome, hsource]

/-- A body that is closed is a node, read from the text between its braces and what is in
front of them. -/
theorem source_closeBody {state next : State} (hlaid : areLaidOut state.frame.nodes)
    (houter : ∀ pair ∈ state.outer, pair.2.IsOpen) (hnone : state.statement = none)
    (h : state.closeBody = .ok next) :
    next.IsWellFormed ∧ next.source = outerSource state.outer ++
      (sourceNodes state.frame.semicolon state.frame.nodes ++ state.before) ++ ['\x7d'] := by
  unfold State.closeBody at h
  split at h
  · cases h
  · next opening frame outer hcons =>
    rw [hcons] at houter
    have hclose : (opening.close state.frame state.before).isLaidOut ∧
        (opening.close state.frame state.before).source true = opening.source ++
          (sourceNodes state.frame.semicolon state.frame.nodes ++ state.before) ++ ['\x7d'] := by
      obtain ⟨heading, before, between, offset⟩ := opening
      cases heading <;>
        simp [Opening.close, Opening.source, Heading.source, Node.isLaidOut, Node.source,
          atRuleSource, hlaid]
    cases h
    refine ⟨⟨(houter _ List.mem_cons_self).push hclose.1,
      fun pair hpair => houter _ (List.mem_cons_of_mem _ hpair), by simp [State.push, hnone]⟩, ?_⟩
    simp [State.source, State.push, State.pending, Frame.source, hnone, hclose.2, hcons,
      outerSource]

/-- What a statement turns out to be when a body follows it. -/
def Statement.heading (statement : Statement) : Heading :=
  match statement.keyword with
  | some length =>
    let (name, afterName, params) := splitKeyword statement.text length
    .atRule name afterName params
  | none => .rule (String.ofList statement.text)

theorem Statement.IsWellFormed.source_heading {statement : Statement}
    (h : statement.IsWellFormed) : statement.heading.source = statement.text := by
  unfold Statement.heading
  split
  · next n hn =>
    obtain ⟨rest, hrest, hpos⟩ := h.keyword n hn
    exact source_splitKeyword hrest hpos
  · simp [Heading.source]

/-- A body that is opened keeps the text in front of it. -/
theorem source_openBody {state : State} {statement : Statement} (hs : state.IsWellFormed)
    (hw : statement.IsWellFormed) :
    (state.openBody statement).IsWellFormed ∧ (state.openBody statement).source =
      outerSource state.outer ++ state.frame.source ++ state.before ++
        (statement.text ++ statement.gap) ++ ['\x7b'] := by
  have hopen : state.openBody statement =
      { state with
        frame := {}
        outer := (⟨statement.heading, String.ofList state.before, String.ofList statement.gap,
          state.offset⟩, state.frame) :: state.outer
        before := []
        statement := none } := rfl
  rw [hopen]
  refine ⟨⟨⟨rfl, rfl⟩, ?_, by simp⟩, ?_⟩
  · intro pair hpair
    rcases List.mem_cons.mp hpair with rfl | hpair
    · exact hs.frame
    · exact hs.outer pair hpair
  · simp [State.source, State.pending, outerSource, Frame.source, Opening.source,
      hw.source_heading]

/-- A comment that is closed keeps its text. -/
theorem source_commentOf (before : List Char) {token : Token} (hkind : token.kind = .comment)
    (hfits : token.Fits) (hclosed : token.isUnclosedComment = false) :
    (commentOf before token).isLaidOut ∧
      (commentOf before token).source true = before ++ token.text := by
  refine ⟨rfl, ?_⟩
  simp only [Token.Fits, hkind] at hfits
  obtain ⟨rest, hrest⟩ := hfits
  simp only [Token.isUnclosedComment, hkind, beq_self_eq_true, Bool.true_and,
    Bool.or_eq_false_iff, decide_eq_false_iff_not, Bool.not_eq_false', Nat.not_lt] at hclosed
  obtain ⟨hlength, hend⟩ := hclosed
  obtain ⟨back, hback⟩ := List.isPrefixOf_iff_prefix.mp hend
  have htext : token.text = back.reverse ++ ['*', '/'] := by
    rw [← List.reverse_reverse token.text, ← hback]
    simp
  obtain ⟨middle, hmiddle⟩ : ∃ middle, token.text = '/' :: '*' :: (middle ++ ['*', '/']) := by
    rw [htext] at hrest hlength
    rcases hrev : back.reverse with _ | ⟨c, _ | ⟨d, middle⟩⟩
    · simp [hrev] at hlength
    · simp [hrev] at hlength
    · rw [hrev] at hrest htext
      injection hrest with hc hrest
      injection hrest with hd hrest
      exact ⟨middle, by rw [htext, hc, hd]; rfl⟩
  simp [commentOf, Node.source, hmiddle]

/-- **What a token does between two statements** adds its text. -/
theorem source_between {state next : State} {token : Token} (hs : state.IsWellFormed)
    (hnone : state.statement = none) (hfits : token.Fits)
    (hclosed : token.isUnclosedComment = false) (h : state.between token = .ok next) :
    next.IsWellFormed ∧ next.source = state.source ++ token.text := by
  unfold State.between at h
  split at h
  · cases h
    exact ⟨⟨hs.frame, hs.outer, hs.statement⟩, by simp [State.source, State.pending, hnone]⟩
  · -- a stray semicolon, kept like white space
    cases h
    exact ⟨⟨hs.frame, hs.outer, hs.statement⟩, by simp [State.source, State.pending, hnone]⟩
  · next hkind =>
    -- a closing brace: what was read last in the body is printed in front of it
    simp only [Token.Fits, hkind] at hfits
    obtain ⟨hwell, hsource⟩ := source_closeBody hs.frame.laidOut hs.outer hnone h
    refine ⟨hwell, ?_⟩
    rw [hsource, hfits, hs.frame.semicolon, sourceNodes_true]
    simp [State.source, State.pending, hnone, Frame.source]
  · next hkind =>
    cases h
    obtain ⟨hlaid, hsource⟩ := source_commentOf state.before hkind hfits hclosed
    exact ⟨hs.push hlaid, State.source_push hnone _ hsource⟩
  · next hkind =>
    cases h
    simp only [Token.Fits, hkind] at hfits
    obtain ⟨hwell, hsource⟩ := source_openBody hs (Statement.IsWellFormed.fresh state.offset)
    exact ⟨hwell, by rw [hsource, hfits]; simp [State.source, State.pending, hnone]⟩
  · -- any other token begins a statement
    cases h
    refine ⟨hs.withStatement ((Statement.IsWellFormed.fresh state.offset).add hfits), ?_⟩
    simp [State.source, State.pending, hnone, Statement.add]

/-- **What a token does inside a statement** adds its text as well. -/
theorem source_inside {state next : State} {statement : Statement} {token : Token}
    (hs : state.IsWellFormed) (hsome : state.statement = some statement) (hfits : token.Fits)
    (h : state.inside statement token = .ok next) :
    next.IsWellFormed ∧ next.source = state.source ++ token.text := by
  have hw := hs.statement _ hsome
  unfold State.inside at h
  split at h
  · next closer outer hbrackets =>
    cases h
    refine ⟨hs.withStatement (hw.addInside hbrackets token), ?_⟩
    -- the token is added right behind the text, which is no loss where there is no gap
    have hgap := hw.gap (by simp [hbrackets])
    simp [State.source, State.pending, hsome, Statement.addInside, hgap]
  · next hbrackets =>
    split at h
    · -- white space is the gap, unless more of the statement follows
      cases h
      refine ⟨hs.withStatement ⟨hw.keyword, fun hne => absurd hbrackets hne⟩, ?_⟩
      simp [State.source, State.pending, hsome]
    · next hkind =>
      -- a semicolon: the statement is a node, which prints the semicolon
      obtain ⟨node, hnode, h⟩ := bind_eq_ok.mp h
      cases h
      simp only [Token.Fits, hkind] at hfits
      obtain ⟨hlaid, hsource⟩ := source_nodeOf hw hnode true
      refine ⟨⟨⟨rfl, (hs.frame.push hlaid).laidOut⟩, hs.outer, by simp⟩, ?_⟩
      simp [State.source, State.pending, State.push, Frame.source, hsome, hsource, hfits]
    · next hkind =>
      -- a closing brace: the statement is the last one of the body, and goes without
      obtain ⟨settled, hsettled, h⟩ := bind_eq_ok.mp h
      simp only [Token.Fits, hkind] at hfits
      obtain ⟨hnone, houter, -, hlaid, hsource⟩ := source_settle hs hsettled
      obtain ⟨hwell, hclose⟩ := source_closeBody hlaid (houter ▸ hs.outer) hnone h
      refine ⟨hwell, ?_⟩
      rw [hclose, hsource, houter, hfits]
      simp [State.source]
    · next hkind =>
      -- an opening brace: the statement is the heading of a body
      cases h
      simp only [Token.Fits, hkind] at hfits
      obtain ⟨hwell, hsource⟩ := source_openBody hs hw
      exact ⟨hwell, by rw [hsource, hfits]; simp [State.source, State.pending, hsome]⟩
    · cases h
      refine ⟨hs.withStatement (hw.add hfits), ?_⟩
      simp [State.source, State.pending, hsome, Statement.add]

/-- A token that is read is closed, and does what it does where it stands. -/
theorem step_eq_ok {state next : State} {token : Token} :
    step state token = .ok next ↔
      token.isUnclosedString = false ∧ token.isUnclosedComment = false ∧
        ∃ moved, (match state.statement with
          | none => state.between token
          | some statement => state.inside statement token) = .ok moved ∧
          next = { moved with offset := state.offset + token.text.length } := by
  unfold step
  cases hstring : token.isUnclosedString
  · cases hcomment : token.isUnclosedComment
    · cases hstatement : state.statement with
      | none =>
        cases state.between token <;>
          simp [bind, Except.bind, pure, Except.pure, eq_comm]
      | some statement =>
        cases hact : state.inside statement token <;>
          simp [bind, Except.bind, pure, Except.pure, hact, eq_comm]
    · simp [bind, Except.bind, throw, throwThe, MonadExceptOf.throw]
  · simp [bind, Except.bind, throw, throwThe, MonadExceptOf.throw]

/-- **Reading a token adds its text to what was read.** -/
theorem State.source_of_step {state next : State} {token : Token} (hs : state.IsWellFormed)
    (hfits : token.Fits) (h : step state token = .ok next) :
    next.IsWellFormed ∧ next.source = state.source ++ token.text := by
  obtain ⟨-, hclosed, moved, hmoved, rfl⟩ := step_eq_ok.mp h
  have hspec : moved.IsWellFormed ∧ moved.source = state.source ++ token.text := by
    split at hmoved
    · next hnone => exact source_between hs hnone hfits hclosed hmoved
    · next statement hsome => exact source_inside hs hsome hfits hmoved
  exact ⟨⟨hspec.1.frame, hspec.1.outer, hspec.1.statement⟩, hspec.2⟩

/-- **Reading tokens adds their texts to what was read**, one after the other. -/
theorem State.source_of_steps {tokens : List Token} (hfits : ∀ token ∈ tokens, token.Fits) :
    ∀ {state next : State}, state.IsWellFormed → tokens.foldlM step state = .ok next →
      next.IsWellFormed ∧ next.source = state.source ++ tokens.flatMap Token.text := by
  induction tokens with
  | nil =>
    intro state next hs h
    cases h
    exact ⟨hs, by simp⟩
  | cons token tokens ih =>
    intro state next hs h
    rw [List.foldlM_cons] at h
    obtain ⟨middle, hmiddle, h⟩ := bind_eq_ok.mp h
    obtain ⟨hwell, hsource⟩ := State.source_of_step hs (hfits token List.mem_cons_self) hmiddle
    obtain ⟨hwell', hsource'⟩ :=
      ih (fun other hother => hfits other (List.mem_cons_of_mem _ hother)) hwell h
    exact ⟨hwell', by rw [hsource', hsource]; simp⟩

/-- A style sheet that is read keeps every character of its tokens. -/
theorem source_ofTokens {tokens : List Token} (hfits : ∀ token ∈ tokens, token.Fits)
    {sheet : Sheet} (h : ofTokens tokens = .ok sheet) :
    areLaidOut sheet.nodes ∧
      sourceNodes sheet.semicolon sheet.nodes ++ sheet.after.toList =
        tokens.flatMap Token.text := by
  obtain ⟨state, hstate, h⟩ := bind_eq_ok.mp h
  obtain ⟨hwell, hsource⟩ := State.source_of_steps hfits State.IsWellFormed.initial hstate
  obtain ⟨settled, hsettled, h⟩ := bind_eq_ok.mp h
  obtain ⟨-, houter, -, hlaid, hsettle⟩ := source_settle hwell hsettled
  split at h
  · cases h
  · next hnil =>
    cases h
    refine ⟨hlaid, ?_⟩
    rw [String.toList_ofList, hsettle, ← List.nil_append (tokens.flatMap Token.text)]
    simpa [State.source, houter ▸ hnil, outerSource, State.pending, Frame.source] using hsource

end Reader

/-! ### The round trip -/

/-- A style sheet that was read was read from all its slots, one after the other. -/
theorem source_ofString {text : String} {sheet : Sheet} (h : Sheet.ofString text = .ok sheet) :
    areLaidOut sheet.nodes ∧
      sourceNodes sheet.semicolon sheet.nodes ++ sheet.after.toList = text.toList := by
  unfold Sheet.ofString at h
  split at h
  · next read hread =>
    cases h
    rw [← text_tokens text.toList]
    exact Reader.source_ofTokens (fun token => fits_of_mem_tokens _) hread
  · cases h

/-- What is printed of a style sheet, and what is left out, is as long as the text that it was
read from. -/
theorem length_render_add_lost {text : String} {sheet : Sheet}
    (h : Sheet.ofString text = .ok sheet) :
    sheet.render.length + lostNodes sheet.nodes = text.length := by
  obtain ⟨hlaid, hsource⟩ := source_ofString h
  have hnodes := length_renderNodes 0 0 sheet.semicolon hlaid
  simp only [Sheet.render, ← String.length_toList, ← hsource, String.toList_append,
    List.length_append] at hnodes ⊢
  omega

/-- Where nothing is left out, a style sheet prints the text that it was read from. -/
theorem render_of_lostNodes {text : String} {sheet : Sheet} (h : Sheet.ofString text = .ok sheet)
    (hlost : lostNodes sheet.nodes = 0) : sheet.render = text := by
  obtain ⟨hlaid, hsource⟩ := source_ofString h
  rw [← String.toList_inj, Sheet.render, String.toList_append,
    toList_renderNodes 0 0 sheet.semicolon hlaid hlost, hsource]

/-- **A style sheet prints the text that it was read from, exactly if nothing is left out**:
if no at-rule without parameters has white space behind its name. What is left out is
counted; the printed text is shorter by as many characters. -/
theorem render_ofString {text : String} {sheet : Sheet} (h : Sheet.ofString text = .ok sheet) :
    sheet.render.length + lostNodes sheet.nodes = text.length ∧
      (sheet.render = text ↔ lostNodes sheet.nodes = 0) := by
  have hlength := length_render_add_lost h
  refine ⟨hlength, fun hrender => ?_, render_of_lostNodes h⟩
  rw [hrender] at hlength
  omega

/-- A block in a block, with a stray semicolon and without a last one. -/
theorem render_ofString_nested :
    let text := "@media  print{;a:hover /* b */ { color : red;margin:0 }}\n"
    ∃ sheet, Sheet.ofString text = .ok sheet ∧ lostNodes sheet.nodes = 0 ∧
      sheet.render = text := by
  intro text
  have hread : Sheet.ofString text = .ok
      ⟨[.block "media" "print"
        [.rule "a:hover /* b */"
          [.declaration "color" "red"
            { before := some " ", between := some " : ", after := some "" },
           .declaration "margin" "0"
            { before := some "", between := some ":", after := some "" }]
          { before := some ";", between := some " ", after := some " ",
            semicolon := some false }]
        { before := some "", between := some "", after := some "", afterName := some "  ",
          semicolon := some true }], "\n", true⟩ := by
    decide +kernel
  exact ⟨_, hread, rfl, (render_ofString hread).2.mpr rfl⟩

/-- **The round trip is not for all texts**: a vertical tab is no white space between tokens,
so it is part of the statement, but it is trimmed off the parameters, and lost. -/
theorem not_forall_render_ofString :
    ¬∀ text sheet, Sheet.ofString text = .ok sheet → sheet.render = text := by
  intro h
  have hread : Sheet.ofString "@a\x0b;" = .ok
      ⟨[.statement "a" "" { before := some "", between := some "", afterName := some "\x0b" }],
        "", true⟩ := by
    decide +kernel
  exact absurd (h _ _ hread) (by decide)

end Restyle.Css
