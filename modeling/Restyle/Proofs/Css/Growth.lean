import Mathlib.Tactic.SplitIfs
import Restyle.Css.Edit

/-!
# Growth

An edit never takes anything away: the nodes of a style sheet are still there afterwards, in
their order, with nodes added to them. This file says what that means, and that it is kept
when one edit follows another.

What may change in a node that stays is the value of a declaration, and only where it is
written to. So growth is relative to what may be written, `Restyle.Css.Writes`: to a path of
places, a property and a value. A path is followed by first match. The nodes in front of a
node therefore decide whether a path leads to it, and the relations below carry them along.

* `Restyle.Css.Node.Grows` and `Restyle.Css.NodesGrow` are for what is inside a container:
  nodes are added behind all others only.
* `Restyle.Css.SheetGrows` is for the nodes of a style sheet itself, where a node may also be
  inserted in front of one that is there, which then starts a line of its own.

Nodes that are inserted are at no place at which a node is found behind them, so that a path
leads to the same nodes before and after.
-/

namespace Restyle.Css

/-! ### What a node is -/

/-- **Nodes are alike** if they differ in what they hold at most: in the nodes inside, in the
value of a declaration and in the layout. -/
structure Node.Alike (node other : Node) : Prop where
  selector : other.selector? = node.selector?
  atRule : other.atRule? = node.atRule?
  property : other.declaration?.map Prod.fst = node.declaration?.map Prod.fst

namespace Node.Alike

variable {node other last : Node}

theorem refl (node : Node) : node.Alike node := ⟨rfl, rfl, rfl⟩

theorem trans (h : node.Alike other) (h' : other.Alike last) : node.Alike last :=
  ⟨h'.selector.trans h.selector, h'.atRule.trans h.atRule, h'.property.trans h.property⟩

/-- Nodes that are alike are found at the same places. -/
theorem isAt (h : node.Alike other) (place : Place) : place.isAt other = place.isAt node := by
  cases place with
  | rule selector => rw [Place.isAt, Place.isAt, h.selector]
  | atRule name params => rw [Place.isAt, Place.isAt, h.atRule]

theorem isAtRuleNamed (h : node.Alike other) (name : String) :
    other.isAtRuleNamed name = node.isAtRuleNamed name := by
  rw [Node.isAtRuleNamed, Node.isAtRuleNamed, h.atRule]

/-- Nodes that are alike declare the same property, if any. -/
theorem declares (h : node.Alike other) (property : String) :
    other.declares property = node.declares property := by
  have hdeclares (node : Node) :
      node.declares property = (node.declaration?.map Prod.fst == some property) := by
    unfold Node.declares
    cases node.declaration? <;> rfl
  rw [hdeclares, hdeclares, h.property]

theorem declaration?_eq_none (h : node.Alike other) (hnone : node.declaration? = none) :
    other.declaration? = none := by
  have hproperty := h.property
  rwa [hnone, Option.map_none, Option.map_eq_none_iff] at hproperty

end Node.Alike

theorem Node.alike_withLayout (layout : Layout) (node : Node) :
    node.Alike (node.withLayout layout) := by
  cases node <;> exact ⟨rfl, rfl, rfl⟩

theorem Node.alike_loosen (node : Node) : node.Alike node.loosen := by
  unfold Node.loosen
  split_ifs
  · exact alike_withLayout _ node
  · exact .refl node

theorem Node.alike_mapChildren (f : List Node → List Node) (node : Node) :
    node.Alike (node.mapChildren f) := by
  cases node <;> exact ⟨rfl, rfl, rfl⟩

theorem Node.alike_fill (f : List Node → List Node) (node : Node) : node.Alike (node.fill f) := by
  cases node with
  | statement name params layout =>
    unfold Node.fill
    split_ifs <;> exact ⟨rfl, rfl, rfl⟩
  | _ => exact ⟨rfl, rfl, rfl⟩

/-! ### What may be written -/

/-- What may be written into a container: along a path of places from the container inwards,
a value of a property. -/
abbrev Writes := List Place → String → String → Prop

namespace Writes

/-- One set of writes is part of another. -/
def Within (writes writes' : Writes) : Prop :=
  ∀ path property value, writes path property value → writes' path property value

/-- What may be written into a node at a place, behind some nodes: nothing, if one of them
is at that place, else what is written along paths that start there. -/
def into (writes : Writes) (seen : List Node) (place : Place) : Writes :=
  fun path property value =>
    (∀ other ∈ seen, ¬place.isAt other) ∧ writes (place :: path) property value

end Writes

/-- Nodes that show whatever other nodes show: a property that is declared or a place that
is taken there is so here. -/
structure Covers (nodes nodes' : List Node) : Prop where
  place : ∀ place : Place, (∀ other ∈ nodes', ¬place.isAt other) →
    ∀ other ∈ nodes, ¬place.isAt other
  property : ∀ property, (∀ other ∈ nodes', ¬other.declares property) →
    ∀ other ∈ nodes, ¬other.declares property

theorem Covers.refl (nodes : List Node) : Covers nodes nodes :=
  ⟨fun _ h => h, fun _ h => h⟩

/-- One more node on both sides. -/
theorem Covers.append {nodes nodes' : List Node} (h : Covers nodes nodes') {node node' : Node}
    (halike : node.Alike node') :
    Covers (nodes ++ [node]) (nodes' ++ [node']) where
  place place hnone other hother := by
    rcases List.mem_append.mp hother with hother | hother
    · exact h.place place (fun o ho => hnone o (List.mem_append_left _ ho)) other hother
    · rw [List.mem_singleton.mp hother, ← halike.isAt]
      exact hnone node' (by simp)
  property property hnone other hother := by
    rcases List.mem_append.mp hother with hother | hother
    · exact h.property property (fun o ho => hnone o (List.mem_append_left _ ho)) other hother
    · rw [List.mem_singleton.mp hother, ← halike.declares]
      exact hnone node' (by simp)

/-- One more node on the side that shows more. -/
theorem Covers.append_right {nodes nodes' : List Node} (h : Covers nodes nodes') (node' : Node) :
    Covers nodes (nodes' ++ [node']) where
  place place hnone := h.place place fun o ho => hnone o (List.mem_append_left _ ho)
  property property hnone := h.property property fun o ho => hnone o (List.mem_append_left _ ho)

/-- What may be written behind more nodes may be written behind fewer. -/
theorem Writes.Within.into {writes writes' : Writes} (h : writes.Within writes')
    {seen seen' : List Node} (hseen : Covers seen seen') (place : Place) :
    (writes.into seen' place).Within (writes'.into seen place) :=
  fun path property value hw =>
    ⟨hseen.place place hw.1, h (place :: path) property value hw.2⟩

/-! ### Inside a container -/

mutual

/-- **A node grows**, behind the nodes `seen`: it is still of its kind and has kept its
layout, its nodes grow, an at-rule without a body may get one with nodes in it, and a
declaration that is the first of its property may take a value that is written there. -/
def Node.Grows (writes : Writes) (seen : List Node) : Node → Node → Prop
  | .rule selector nodes layout, grown =>
    ∃ nodes', grown = .rule selector nodes' layout ∧
      NodesGrow (writes.into seen (.rule selector)) [] nodes nodes'
  | .block name params nodes layout, grown =>
    ∃ nodes', grown = .block name params nodes' layout ∧
      NodesGrow (writes.into seen (.atRule name params)) [] nodes nodes'
  | .statement name params layout, grown =>
    grown = .statement name params layout ∨
      ∃ nodes, nodes ≠ [] ∧ grown = .block name params nodes layout
  | .declaration property value layout, grown =>
    ∃ value', grown = .declaration property value' layout ∧
      (value' = value ∨
        (∀ other ∈ seen, ¬other.declares property) ∧ writes [] property value')
  | .comment text layout, grown => grown = .comment text layout

/-- **The nodes of a container grow**: each of them does, in order, and all that is added is
behind them. -/
def NodesGrow (writes : Writes) (seen : List Node) : List Node → List Node → Prop
  | [], _ => True
  | _ :: _, [] => False
  | node :: rest, grown :: rest' =>
    node.Grows writes seen grown ∧ NodesGrow writes (seen ++ [node]) rest rest'

end

/-- **A node that grows is still what it was.** -/
theorem Node.Grows.alike {writes : Writes} {seen : List Node} {node grown : Node}
    (h : node.Grows writes seen grown) : node.Alike grown := by
  cases node with
  | rule selector nodes layout =>
    obtain ⟨nodes', rfl, -⟩ := h
    exact ⟨rfl, rfl, rfl⟩
  | block name params nodes layout =>
    obtain ⟨nodes', rfl, -⟩ := h
    exact ⟨rfl, rfl, rfl⟩
  | statement name params layout =>
    rcases h with rfl | ⟨nodes, -, rfl⟩ <;> exact ⟨rfl, rfl, rfl⟩
  | declaration property value layout =>
    obtain ⟨value', rfl, -⟩ := h
    exact ⟨rfl, rfl, rfl⟩
  | comment text layout =>
    obtain rfl := h
    exact .refl _

/-- A node that grows keeps its layout. -/
theorem Node.Grows.layout {writes : Writes} {seen : List Node} {node grown : Node}
    (h : node.Grows writes seen grown) : grown.layout = node.layout := by
  cases node with
  | rule selector nodes layout =>
    obtain ⟨nodes', rfl, -⟩ := h
    rfl
  | block name params nodes layout =>
    obtain ⟨nodes', rfl, -⟩ := h
    rfl
  | statement name params layout => rcases h with rfl | ⟨nodes, -, rfl⟩ <;> rfl
  | declaration property value layout =>
    obtain ⟨value', rfl, -⟩ := h
    rfl
  | comment text layout =>
    obtain rfl := h
    rfl

mutual

/-- Every node grows into itself. -/
theorem Node.Grows.refl (writes : Writes) (seen : List Node) :
    ∀ node : Node, node.Grows writes seen node
  | .rule selector nodes _ =>
    ⟨nodes, rfl, NodesGrow.refl (writes.into seen (.rule selector)) [] nodes⟩
  | .block name params nodes _ =>
    ⟨nodes, rfl, NodesGrow.refl (writes.into seen (.atRule name params)) [] nodes⟩
  | .statement _ _ _ => Or.inl rfl
  | .declaration _ value _ => ⟨value, rfl, Or.inl rfl⟩
  | .comment _ _ => rfl

/-- All nodes grow into themselves. -/
theorem NodesGrow.refl (writes : Writes) (seen : List Node) :
    ∀ nodes : List Node, NodesGrow writes seen nodes nodes
  | [] => trivial
  | node :: rest =>
    ⟨Node.Grows.refl writes seen node, NodesGrow.refl writes (seen ++ [node]) rest⟩

end

mutual

/-- **A node that grows twice has grown**, by what was written the first and the second
time. -/
theorem Node.Grows.trans {writes writes' whole : Writes} (hw : writes.Within whole)
    (hw' : writes'.Within whole) {seen seen' : List Node} (hseen : Covers seen seen') :
    ∀ {node middle grown : Node}, node.Grows writes seen middle →
      middle.Grows writes' seen' grown → node.Grows whole seen grown
  | .rule selector nodes layout, middle, grown, h, h' => by
    obtain ⟨nodes', rfl, hnodes⟩ := h
    obtain ⟨nodes'', rfl, hnodes'⟩ := h'
    exact ⟨nodes'', rfl, NodesGrow.trans (hw.into (.refl seen) _) (hw'.into hseen _) (.refl [])
      hnodes hnodes'⟩
  | .block name params nodes layout, middle, grown, h, h' => by
    obtain ⟨nodes', rfl, hnodes⟩ := h
    obtain ⟨nodes'', rfl, hnodes'⟩ := h'
    exact ⟨nodes'', rfl, NodesGrow.trans (hw.into (.refl seen) _) (hw'.into hseen _) (.refl [])
      hnodes hnodes'⟩
  | .statement name params layout, middle, grown, h, h' => by
    rcases h with rfl | ⟨nodes, hne, rfl⟩
    · exact h'
    · obtain ⟨nodes', rfl, hnodes⟩ := h'
      refine Or.inr ⟨nodes', ?_, rfl⟩
      rintro rfl
      cases nodes with
      | nil => exact hne rfl
      | cons node rest => exact hnodes
  | .declaration property value layout, middle, grown, h, h' => by
    obtain ⟨value', rfl, hvalue⟩ := h
    obtain ⟨value'', rfl, hvalue'⟩ := h'
    refine ⟨value'', rfl, ?_⟩
    rcases hvalue' with rfl | ⟨hnone, hwrite⟩
    · exact hvalue.imp_right fun ⟨hnone, hwrite⟩ => ⟨hnone, hw _ _ _ hwrite⟩
    · exact Or.inr ⟨hseen.property property hnone, hw' _ _ _ hwrite⟩
  | .comment text layout, middle, grown, h, h' => by
    obtain rfl := h
    exact h'

/-- The nodes of a container that grow twice have grown. -/
theorem NodesGrow.trans {writes writes' whole : Writes} (hw : writes.Within whole)
    (hw' : writes'.Within whole) {seen seen' : List Node} (hseen : Covers seen seen') :
    ∀ {nodes middle grown : List Node}, NodesGrow writes seen nodes middle →
      NodesGrow writes' seen' middle grown → NodesGrow whole seen nodes grown
  | [], _, _, _, _ => trivial
  | _ :: _, _ :: _, [], _, h' => h'
  | node :: rest, other :: middle, last :: grown, h, h' =>
    ⟨Node.Grows.trans hw hw' hseen h.1 h'.1,
      NodesGrow.trans hw hw' (hseen.append h.1.alike) h.2 h'.2⟩

end

/-- What grows by some writes grows by more. -/
theorem NodesGrow.mono {writes writes' : Writes} (hw : writes.Within writes')
    {seen seen' nodes grown : List Node} (hseen : Covers seen' seen)
    (h : NodesGrow writes seen nodes grown) : NodesGrow writes' seen' nodes grown :=
  NodesGrow.trans hw hw hseen (NodesGrow.refl writes seen' nodes) h

/-- Nodes behind the others of a container. -/
theorem nodesGrow_append (writes : Writes) (seen : List Node) (nodes new : List Node) :
    NodesGrow writes seen nodes (nodes ++ new) := by
  induction nodes generalizing seen with
  | nil => trivial
  | cons node rest ih => exact ⟨Node.Grows.refl writes seen node, ih (seen ++ [node])⟩

/-! ### A whole style sheet -/

/-- **The nodes of a style sheet grow.** Each that was there is kept, in order, and grows;
others are inserted in front of it or added at the end. A node that is kept right behind a
new one may forget that nothing stood in front of it. -/
inductive SheetGrows (writes : Writes) :
    (behindNew : Bool) → (seen : List Node) → List Node → List Node → Prop
  | added {behindNew : Bool} {seen new : List Node} : SheetGrows writes behindNew seen [] new
  | insert {behindNew : Bool} {seen old new : List Node} {node : Node}
      (hdeclaration : node.declaration? = none)
      (hplace : ∀ place : Place, place.isAt node → ∀ other ∈ old, ¬place.isAt other)
      (hrest : SheetGrows writes true seen old new) :
      SheetGrows writes behindNew seen old (node :: new)
  | keep {behindNew : Bool} {seen old new : List Node} {node grown kept : Node}
      (hgrows : node.Grows writes seen grown)
      (hkept : kept = grown ∨ behindNew = true ∧ kept = grown.loosen)
      (hrest : SheetGrows writes false (seen ++ [node]) old new) :
      SheetGrows writes behindNew seen (node :: old) (kept :: new)

/-- What grows as a container does grows as a style sheet. -/
theorem NodesGrow.sheetGrows {writes : Writes} :
    ∀ {seen old new : List Node} (behindNew : Bool), NodesGrow writes seen old new →
      SheetGrows writes behindNew seen old new
  | _, [], _, _, _ => .added
  | _, _ :: _, _ :: _, _, h => .keep h.1 (.inl rfl) (NodesGrow.sheetGrows false h.2)

/-! The layout of a node has no part in how it grows. -/

@[simp] theorem Node.layout_withLayout (node : Node) (layout : Layout) :
    (node.withLayout layout).layout = layout := by
  cases node <;> rfl

@[simp] theorem Node.withLayout_layout (node : Node) : node.withLayout node.layout = node := by
  cases node <;> rfl

@[simp] theorem Node.withLayout_withLayout (node : Node) (layout layout' : Layout) :
    (node.withLayout layout).withLayout layout' = node.withLayout layout' := by
  cases node <;> rfl

theorem Node.Grows.withLayout {writes : Writes} {seen : List Node} {node grown : Node}
    (h : node.Grows writes seen grown) (layout : Layout) :
    (node.withLayout layout).Grows writes seen (grown.withLayout layout) := by
  cases node with
  | rule selector nodes _ =>
    obtain ⟨nodes', rfl, hnodes⟩ := h
    exact ⟨nodes', rfl, hnodes⟩
  | block name params nodes _ =>
    obtain ⟨nodes', rfl, hnodes⟩ := h
    exact ⟨nodes', rfl, hnodes⟩
  | statement name params _ =>
    rcases h with rfl | ⟨nodes, hne, rfl⟩
    · exact Or.inl rfl
    · exact Or.inr ⟨nodes, hne, rfl⟩
  | declaration property value _ =>
    obtain ⟨value', rfl, hvalue⟩ := h
    exact ⟨value', rfl, hvalue⟩
  | comment text _ =>
    obtain rfl := h
    rfl

/-- A loosened node is the node in another layout. -/
theorem Node.loosen_eq (node : Node) :
    node.loosen = node.withLayout (if node.layout.before = some "" then
      { node.layout with before := none } else node.layout) := by
  unfold Node.loosen
  split_ifs <;> simp

/-- How a layout is loosened is a matter of that layout alone. -/
theorem Node.loosen_withLayout (node other : Node) :
    (node.withLayout other.layout).loosen = node.withLayout other.loosen.layout := by
  simp [Node.loosen_eq]

@[simp] theorem Node.loosen_loosen (node : Node) : node.loosen.loosen = node.loosen := by
  simp only [Node.loosen_eq, Node.layout_withLayout, Node.withLayout_withLayout]
  split_ifs <;> simp_all

/-- A node that is loosened and then grows could as well have grown first. -/
theorem Node.Grows.of_loosen {writes : Writes} {seen : List Node} {node grown : Node}
    (h : node.loosen.Grows writes seen grown) :
    ∃ first, node.Grows writes seen first ∧ grown = first.loosen := by
  refine ⟨grown.withLayout node.layout, ?_, ?_⟩
  · have h' := h.withLayout node.layout
    rwa [Node.loosen_eq, Node.withLayout_withLayout, Node.withLayout_layout] at h'
  · rw [Node.loosen_withLayout, ← h.layout, Node.withLayout_layout]

/-- A node that is kept is still what it was. -/
theorem alike_of_kept {writes : Writes} {seen : List Node} {node grown kept : Node}
    {behindNew : Bool} (hgrows : node.Grows writes seen grown)
    (hkept : kept = grown ∨ behindNew = true ∧ kept = grown.loosen) : node.Alike kept := by
  rcases hkept with rfl | ⟨-, rfl⟩
  · exact hgrows.alike
  · exact hgrows.alike.trans grown.alike_loosen

/-- What is found nowhere in a style sheet that grew was nowhere in it before. -/
theorem SheetGrows.not_isAt {writes : Writes} {behindNew : Bool} {seen old new : List Node}
    (h : SheetGrows writes behindNew seen old new) {place : Place}
    (hnew : ∀ other ∈ new, ¬place.isAt other) : ∀ other ∈ old, ¬place.isAt other := by
  induction h with
  | added => simp
  | insert _ _ _ ih => exact ih fun other hother => hnew other (List.mem_cons_of_mem _ hother)
  | keep hgrows hkept _ ih =>
    intro other hother
    rcases List.mem_cons.mp hother with rfl | hother
    · rw [← (alike_of_kept hgrows hkept).isAt]
      exact hnew _ List.mem_cons_self
    · exact ih (fun o ho => hnew o (List.mem_cons_of_mem _ ho)) other hother

/-- **A node that is kept twice has been kept**, behind something new if it was so once. -/
theorem kept_trans {writes writes' whole : Writes} (hw : writes.Within whole)
    (hw' : writes'.Within whole) {seen seen' : List Node} (hseen : Covers seen seen')
    {node grown middle grown' last : Node} {behind behind' behindAny : Bool}
    (hbehind : behind = true ∨ behind' = true → behindAny = true)
    (hgrows : node.Grows writes seen grown)
    (hkept : middle = grown ∨ behind = true ∧ middle = grown.loosen)
    (hgrows' : middle.Grows writes' seen' grown')
    (hkept' : last = grown' ∨ behind' = true ∧ last = grown'.loosen) :
    ∃ whole', node.Grows whole seen whole' ∧
      (last = whole' ∨ behindAny = true ∧ last = whole'.loosen) := by
  rcases hkept with rfl | ⟨hb, rfl⟩
  · exact ⟨grown', hgrows.trans hw hw' hseen hgrows',
      hkept'.imp_right fun ⟨hb, h⟩ => ⟨hbehind (.inr hb), h⟩⟩
  · obtain ⟨first, hfirst, rfl⟩ := hgrows'.of_loosen
    refine ⟨first, hgrows.trans hw hw' hseen hfirst, .inr ⟨hbehind (.inl hb), ?_⟩⟩
    rcases hkept' with rfl | ⟨-, rfl⟩
    · rfl
    · exact Node.loosen_loosen first

/-- **A style sheet that grows twice has grown.** -/
theorem SheetGrows.trans {writes writes' whole : Writes} (hw : writes.Within whole)
    (hw' : writes'.Within whole) {behind' : Bool} {seen' middle new : List Node}
    (h' : SheetGrows writes' behind' seen' middle new) :
    ∀ {behind behindAny : Bool} {seen old : List Node},
      (behind = true ∨ behind' = true → behindAny = true) → Covers seen seen' →
      SheetGrows writes behind seen old middle → SheetGrows whole behindAny seen old new := by
  -- Along the second growth: what it keeps is new from the first one, or was kept by that, too.
  induction h' with
  | added =>
    intro behind behindAny seen old _ _ h
    cases h
    exact .added
  | insert hdeclaration hplace _ ih =>
    intro behind behindAny seen old hb hseen h
    refine .insert hdeclaration (fun place hat => h.not_isAt (hplace place hat)) ?_
    exact ih (fun _ => rfl) hseen h
  | keep hgrows' hkept' _ ih =>
    intro behind behindAny seen old hb hseen h
    cases h with
    | added => exact .added
    | insert hdeclaration hplace hrest =>
      have halike := alike_of_kept hgrows' hkept'
      refine .insert (halike.declaration?_eq_none hdeclaration) (fun place hat => ?_) ?_
      · exact hplace place (halike.isAt place ▸ hat)
      · exact ih (fun _ => rfl) (hseen.append_right _) hrest
    | keep hgrows hkept hrest =>
      obtain ⟨grown, hgrown, hlast⟩ := kept_trans hw hw' hseen hb hgrows hkept hgrows' hkept'
      exact .keep hgrown hlast (ih (by simp) (hseen.append (alike_of_kept hgrows hkept)) hrest)

/-- Nothing is taken from a style sheet that stays as it is. -/
theorem SheetGrows.refl (writes : Writes) (behindNew : Bool) (seen nodes : List Node) :
    SheetGrows writes behindNew seen nodes nodes :=
  (NodesGrow.refl writes seen nodes).sheetGrows behindNew

end Restyle.Css
