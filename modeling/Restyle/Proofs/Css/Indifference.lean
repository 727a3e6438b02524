import Restyle.Proofs.Css.Distinct
import Restyle.Proofs.Css.Outline

/-!
# Edits that do not look at layouts

How a style sheet is laid out is its author's business, and no edit should do one thing in a
style sheet with blank lines and another in one without. So it is with all edits: an edit is
**indifferent** to layouts (`Restyle.Css.IsIndifferent`) if it makes no difference whether the
layouts are forgotten before it or after it. Two trees with the same nodes in other layouts have
the same outline with comments, so that an indifferent edit takes them to trees of one outline
again (`Restyle.Css.IsIndifferent.outline_eq`).

This is not for want of looking at layouts altogether. A node that is pushed down by an insertion
forgets that there was nothing in front of it (`Restyle.Css.Node.loosen`), and whether it does is
up to its layout. But it is only its layout that is changed by it.
-/

namespace Restyle.Css

variable {place : Place} {node : Node} {nodes old new : List Node} {property value : String}
  {f g : List Node → List Node}

/-! ### Nodes without layouts -/

/-- A node without layouts. -/
def Node.bare : Node → Node
  | .rule selector nodes _ => .rule selector (Css.outline true nodes) {}
  | .block name params nodes _ => .block name params (Css.outline true nodes) {}
  | .statement name params _ => .statement name params {}
  | .declaration property value _ => .declaration property value {}
  | .comment text _ => .comment text {}

/-- With its comments, an outline has one node for each node. -/
theorem outline_true (nodes : List Node) : outline true nodes = nodes.map Node.bare := by
  induction nodes with
  | nil => rfl
  | cons node rest ih =>
    rw [outline, ih]
    cases node <;> rfl

@[simp] theorem bare_statement (name params : String) :
    (Node.statement name params {}).bare = .statement name params {} := rfl

@[simp] theorem bare_breakMarker : breakMarker.bare = breakMarker := rfl

theorem Node.alike_bare (node : Node) : node.Alike node.bare := by
  cases node <;> exact ⟨rfl, rfl, rfl⟩

theorem Node.children_bare (node : Node) : node.bare.children = Css.outline true node.children := by
  cases node <;> rfl

theorem Node.declaration?_bare (node : Node) : node.bare.declaration? = node.declaration? := by
  cases node <;> rfl

theorem Node.bare_withLayout (layout : Layout) (node : Node) :
    (node.withLayout layout).bare = node.bare := by
  cases node <;> rfl

theorem Node.bare_loosen (node : Node) : node.loosen.bare = node.bare := by
  rw [Node.loosen_eq, Node.bare_withLayout]

theorem Node.loosen_bare (node : Node) : node.bare.loosen = node.bare := by
  cases node <;> rfl

/-- What is asked of each node, its layout apart, is asked of the outline. -/
theorem map_outline {α : Type} {k : Node → α} (hk : ∀ node, k node.bare = k node)
    (nodes : List Node) : (outline true nodes).map k = nodes.map k := by
  rw [outline_true, List.map_map]
  exact List.map_congr_left fun node _ => hk node

theorem any_outline_true {p : Node → Bool} (hp : ∀ node : Node, p node.bare = p node)
    (nodes : List Node) : (outline true nodes).any p = nodes.any p :=
  any_congr_map (map_outline hp nodes)

theorem isEmpty_outline_true (nodes : List Node) :
    (outline true nodes).isEmpty = nodes.isEmpty := by
  rw [outline_true, List.isEmpty_map]

theorem length_outline_true (nodes : List Node) : (outline true nodes).length = nodes.length := by
  rw [outline_true, List.length_map]

theorem isDeclared_outline_true (property : String) (nodes : List Node) :
    isDeclared property (outline true nodes) = isDeclared property nodes :=
  any_outline_true (fun node => node.alike_bare.declares property) nodes

theorem lastIndex?_outline_true {p : Node → Bool} (hp : ∀ node : Node, p node.bare = p node)
    (nodes : List Node) : lastIndex? p (outline true nodes) = lastIndex? p nodes :=
  lastIndex?_congr (map_outline hp nodes)

theorem lastAtRule?_outline_true (name : String) (nodes : List Node) :
    lastAtRule? name (outline true nodes) = lastAtRule? name nodes :=
  lastIndex?_outline_true (fun node => node.alike_bare.isAtRuleNamed name) nodes

/-! ### Indifferent edits -/

/-- **An edit is indifferent to layouts** if they may as well be forgotten before it as after
it. -/
def IsIndifferent (f : List Node → List Node) : Prop :=
  ∀ nodes, outline true (f nodes) = f (outline true nodes)

namespace IsIndifferent

/-- **Trees that differ in layouts are taken to trees that differ in layouts.** -/
theorem outline_eq (hf : IsIndifferent f) (h : outline true old = outline true new) :
    outline true (f old) = outline true (f new) := by
  rw [hf, hf, h]

theorem id : IsIndifferent fun nodes => nodes := fun _ => rfl

theorem comp (hf : IsIndifferent f) (hg : IsIndifferent g) :
    IsIndifferent fun nodes => f (g nodes) := by
  intro nodes
  dsimp only
  rw [hf, hg]

theorem foldl {α : Type} {edit : List Node → α → List Node} {edits : List α}
    (hedit : ∀ x ∈ edits, IsIndifferent fun nodes => edit nodes x) :
    IsIndifferent fun nodes => edits.foldl edit nodes := by
  induction edits with
  | nil => exact .id
  | cons first rest ih =>
    obtain ⟨hfirst, hrest⟩ := List.forall_mem_cons.mp hedit
    exact (ih hrest).comp hfirst

/-- An edit under a condition that has nothing to do with the nodes. -/
theorem otherwise {c : Prop} [Decidable c] (hf : IsIndifferent f) :
    IsIndifferent fun nodes => if c then nodes else f nodes := by
  intro nodes
  dsimp only
  split_ifs
  · rfl
  · exact hf nodes

/-- An edit where nothing of a kind is there. -/
theorem unlessAny {p : Node → Bool} (hf : IsIndifferent f)
    (hp : ∀ node : Node, p node.bare = p node) :
    IsIndifferent fun nodes => if nodes.any p then nodes else f nodes := by
  intro nodes
  dsimp only
  rw [any_outline_true hp]
  split_ifs
  · rfl
  · exact hf nodes

end IsIndifferent

/-! ### Adding nodes -/

/-- New nodes have no layouts. -/
theorem isIndifferent_push (hnode : node.bare = node) (withBreak : Bool) :
    IsIndifferent (push withBreak node) := by
  intro nodes
  rw [push, push, isEmpty_outline_true]
  split_ifs <;> simp [outline_true, hnode]

/-- What is pushed down differs in its layout at most. -/
theorem isIndifferent_insertAt (hnew : ∀ node ∈ new, node.bare = node) (index : Nat) :
    IsIndifferent (insertAt index new) := by
  intro nodes
  rcases eq_or_ne new [] with rfl | hne
  · rfl
  have hsame : new.map Node.bare = new := List.map_congr_left hnew |>.trans new.map_id
  have hfirst (rest : List Node) : loosenFirst (rest.map Node.bare) = rest.map Node.bare := by
    cases rest with
    | nil => rfl
    | cons next rest => rw [List.map_cons, loosenFirst, Node.loosen_bare]
  rw [outline_true, map_insertAt Node.bare_loosen hne, hsame, insertAt_eq hne, outline_true,
    ← List.map_take, ← List.map_drop, hfirst]

/-! ### Places -/

theorem bare_fresh (place : Place) : place.fresh.bare = place.fresh := by
  cases place <;> rfl

theorem isIndifferent_reach (place : Place) (withBreak : Bool) :
    IsIndifferent (reach place withBreak) :=
  (isIndifferent_push (bare_fresh place) withBreak).unlessAny fun node =>
    node.alike_bare.isAt place

/-- An at-rule gets a body or not, whatever its layout. -/
theorem Node.bare_fill (hf : IsIndifferent f) (node : Node) :
    (node.fill f).bare = node.bare.fill f := by
  cases node with
  | rule selector nodes layout => exact congrArg (Node.rule selector · {}) (hf nodes)
  | block name params nodes layout => exact congrArg (Node.block name params · {}) (hf nodes)
  | statement name params layout =>
    unfold Node.fill
    dsimp only [Node.bare]
    -- a body is made if something is put in it, and that is so with the layout and without
    split_ifs
    · rfl
    · exact congrArg (Node.block name params · {}) (hf [])
  | declaration property value layout => rfl
  | comment text layout => rfl

theorem isIndifferent_inside (hf : IsIndifferent f) (place : Place) :
    IsIndifferent (inside place f) := by
  intro nodes
  rw [outline_true, outline_true]
  induction nodes with
  | nil => rfl
  | cons node rest ih =>
    -- the first node at the place is the first one in the outline too, so both lists turn off here
    have hsame := node.alike_bare.isAt place
    by_cases hat : place.isAt node
    · rw [inside_cons_of_isAt hat, List.map_cons, Node.bare_fill hf, List.map_cons,
        inside_cons_of_isAt (hsame.trans hat)]
    · rw [inside_cons_of_not_isAt hat, List.map_cons, ih, List.map_cons,
        inside_cons_of_not_isAt (hsame ▸ hat)]

/-- **An edit at a place is indifferent** if it is so where it takes place. -/
theorem isIndifferent_enter (hf : IsIndifferent f) (place : Place) (withBreak : Bool) :
    IsIndifferent (enter place withBreak f) :=
  (isIndifferent_inside hf place).comp (isIndifferent_reach place withBreak)

/-! ### Declarations -/

theorem isIndifferent_declare (property value : String) :
    IsIndifferent (declare property value) := by
  intro nodes
  rw [outline_true, outline_true]
  induction nodes with
  | nil => rfl
  | cons node rest ih =>
    have hsame := node.alike_bare.declares property
    by_cases hnode : node.declares property
    · have hlayout : node.bare.layout = {} := by cases node <;> rfl
      rw [declare_cons_of_declares hnode, List.map_cons, List.map_cons,
        declare_cons_of_declares (hsame.trans hnode), hlayout]
      rfl
    · rw [declare_cons_of_not_declares hnode, List.map_cons, ih, List.map_cons,
        declare_cons_of_not_declares (hsame ▸ hnode)]

theorem isIndifferent_assign (overwrite : Bool) (property value : String) :
    IsIndifferent (assign overwrite property value) := by
  intro nodes
  rw [assign, assign, isDeclared_outline_true]
  split_ifs
  · exact isIndifferent_declare property value nodes
  · rfl

theorem isIndifferent_insertProperty (property value : String) :
    IsIndifferent (insertProperty property value) := by
  intro nodes
  have hcustom (node : Node) : node.bare.isCustomProperty = node.isCustomProperty := by
    rw [Node.isCustomProperty, Node.declaration?_bare, Node.isCustomProperty]
  rw [insertProperty, insertProperty, isDeclared_outline_true, lastIndex?_outline_true hcustom,
    length_outline_true]
  split_ifs
  · rfl
  · rw [outline_true, outline_true, List.map_append, List.map_cons, List.map_take, List.map_drop]
    rfl

/-! ### Statements -/

theorem isIndifferent_ensureStatement (name params : String) (withBreak : Bool) :
    IsIndifferent (ensureStatement name params withBreak) :=
  (isIndifferent_push (bare_statement name params) withBreak).unlessAny fun node =>
    node.alike_bare.isAt _

theorem isIndifferent_ensureImport (params : String) : IsIndifferent (ensureImport params) := by
  intro nodes
  rw [ensureImport, ensureImport, any_isAt_outline, lastAtRule?_outline_true]
  split_ifs
  · rfl
  · exact isIndifferent_insertAt (by simp) _ nodes

theorem isIndifferent_ensurePlugin (params : String) : IsIndifferent (ensurePlugin params) := by
  intro nodes
  have hloads (node : Node) : node.bare.loadsPlugin (quotedPlugin params) =
      node.loadsPlugin (quotedPlugin params) := by
    rw [Node.loadsPlugin, node.alike_bare.atRule, Node.loadsPlugin]
  rw [ensurePlugin_eq, ensurePlugin_eq, any_outline_true hloads, lastAtRule?_outline_true,
    lastAtRule?_outline_true]
  split_ifs
  · rfl
  · split <;> exact isIndifferent_insertAt (by simp) _ nodes

end Restyle.Css
