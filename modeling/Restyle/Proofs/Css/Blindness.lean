import Restyle.Proofs.Css.Frame
import Restyle.Proofs.Css.Persistence

/-!
# Edits that do not look at values

What an edit does rarely depends on values: it looks for a place, or asks whether a property is
declared. Then values may as well be replaced afterwards. There are two sides to that.

* An edit of a container is **blind** (`Restyle.Css.IsBlind`) if it makes no difference to it
  what values the properties have that are declared.
* An edit is **beside** a place (`Restyle.Css.IsBeside`) if it makes no difference to it what is
  inside the first node at that place.

Insertions and additions are blind, and all edits are beside the places that they do not enter.
-/

namespace Restyle.Css

variable {place other : Place} {node : Node} {nodes : List Node} {property value : String}
  {f g h : List Node → List Node}

/-! ### What is asked of each node -/

/-- The number of the last node of a kind depends on the kinds of the nodes alone. -/
theorem lastIndex?_congr {p : Node → Bool} {xs ys : List Node} (h : xs.map p = ys.map p) :
    lastIndex? p xs = lastIndex? p ys := by
  have hlength : xs.length = ys.length := by simpa using congrArg List.length h
  have hreverse (zs : List Node) :
      zs.reverse.findIdx? p = (zs.map p).reverse.findIdx? id := by
    rw [← List.map_reverse, List.findIdx?_map]
    rfl
  rw [lastIndex?, lastIndex?, hreverse, hreverse, h, hlength]

theorem any_congr_map {p : Node → Bool} {xs ys : List Node} (h : xs.map p = ys.map p) :
    xs.any p = ys.any p := by
  have hany (zs : List Node) : zs.any p = (zs.map p).any id := by simp [List.any_map]
  rw [hany, hany, h]

theorem isEmpty_congr_map {α : Type} {k : Node → α} {xs ys : List Node}
    (h : xs.map k = ys.map k) : xs.isEmpty = ys.isEmpty := by
  rw [← List.isEmpty_map (f := k) (l := xs), h, List.isEmpty_map]

/-- A property that is declared takes another value, and nothing else is changed. -/
theorem map_declare {α : Type} {k : Node → α}
    (hk : ∀ old layout,
      k (.declaration property value layout) = k (.declaration property old layout))
    (hdeclared : isDeclared property nodes) :
    (declare property value nodes).map k = nodes.map k := by
  induction nodes with
  | nil => cases hdeclared
  | cons node rest ih =>
    by_cases hnode : node.declares property
    · cases node with
      | declaration name old layout =>
        obtain rfl : name = property := by simpa [declares_declaration] using hnode
        rw [declare_cons_of_declares hnode, List.map_cons, List.map_cons]
        exact congrArg (· :: _) (hk old layout)
      | _ => simp [Node.declares, Node.declaration?] at hnode
    · rw [declare_cons_of_not_declares hnode, List.map_cons, List.map_cons,
        ih (by simpa [isDeclared, hnode] using hdeclared)]

/-- So what is inside the first node at a place is no matter to what is asked of the nodes beside
it, or of what that node is. -/
theorem map_inside {α : Type} {k : Node → α}
    (hk : ∀ node, place.isAt node → k (node.fill f) = k node) (nodes : List Node) :
    (inside place f nodes).map k = nodes.map k := by
  induction nodes with
  | nil => rfl
  | cons node rest ih =>
    by_cases hat : place.isAt node
    · rw [inside_cons_of_isAt hat, List.map_cons, List.map_cons, hk node hat]
    · rw [inside_cons_of_not_isAt hat, List.map_cons, List.map_cons, ih]

/-! ### Blind edits -/

/-- **An edit is blind** if it does the same whatever the values are, and keeps what is
declared. -/
structure IsBlind (f : List Node → List Node) : Prop where
  keeps : ∀ {property nodes}, isDeclared property nodes → isDeclared property (f nodes)
  comm : ∀ {property nodes} value, isDeclared property nodes →
    f (declare property value nodes) = declare property value (f nodes)

theorem isDeclared_declare_of_isDeclared (hdeclared : isDeclared property nodes) (other : String) :
    isDeclared other (declare property value nodes) = isDeclared other nodes :=
  any_congr_map (map_declare (fun _ _ => rfl) hdeclared)

/-- What is declared stays so where nodes persist. -/
theorem NodesPersist.isDeclared {writes : Writes} {seen old new : List Node}
    (h : NodesPersist writes seen old new) (hdeclared : Css.isDeclared property old) :
    Css.isDeclared property new :=
  h.any (fun halike => halike.declares property) hdeclared

namespace IsBlind

theorem id : IsBlind fun nodes => nodes := ⟨fun h => h, fun _ _ => rfl⟩

theorem comp (hf : IsBlind f) (hg : IsBlind g) : IsBlind fun nodes => f (g nodes) where
  keeps hdeclared := hf.keeps (hg.keeps hdeclared)
  comm value hdeclared := by rw [hg.comm value hdeclared, hf.comm value (hg.keeps hdeclared)]

theorem foldl {α : Type} {edit : List Node → α → List Node} {edits : List α}
    (hedit : ∀ x ∈ edits, IsBlind fun nodes => edit nodes x) :
    IsBlind fun nodes => edits.foldl edit nodes := by
  induction edits with
  | nil => exact .id
  | cons first rest ih =>
    obtain ⟨hfirst, hrest⟩ := List.forall_mem_cons.mp hedit
    exact (ih hrest).comp hfirst

end IsBlind

theorem declare_append_of_isDeclared (hdeclared : isDeclared property nodes) (new : List Node) :
    declare property value (nodes ++ new) = declare property value nodes ++ new := by
  induction nodes with
  | nil => cases hdeclared
  | cons node rest ih =>
    by_cases hnode : node.declares property
    · rw [List.cons_append, declare_cons_of_declares hnode, declare_cons_of_declares hnode,
        List.cons_append]
    · rw [List.cons_append, declare_cons_of_not_declares hnode, declare_cons_of_not_declares hnode,
        List.cons_append, ih (by simpa [isDeclared, hnode] using hdeclared)]

/-- Where a property is declared, it may take its value before or after another one does. -/
theorem declare_comm_of_isDeclared {other value' : String} (hne : property ≠ other)
    (hdeclared : isDeclared property nodes) :
    declare property value (declare other value' nodes) =
      declare other value' (declare property value nodes) := by
  by_cases hother : isDeclared other nodes
  · exact declare_comm hne hdeclared hother
  · have hbehind : ¬isDeclared other (declare property value nodes) := by
      rwa [isDeclared_declare_of_isDeclared hdeclared]
    rw [declare_eq_append hother, declare_append_of_isDeclared hdeclared,
      declare_eq_append hbehind]

/-- A node in between that does not declare the property. -/
theorem declare_insert (hnode : ¬node.declares property) (value : String)
    (front back : List Node) :
    declare property value (front ++ node :: back) =
      (declare property value (front ++ back)).take front.length ++
        node :: (declare property value (front ++ back)).drop front.length := by
  induction front with
  | nil => exact declare_cons_of_not_declares hnode back
  | cons first front ih =>
    by_cases hfirst : first.declares property
    · simp [declare_cons_of_declares hfirst]
    · simpa [declare_cons_of_not_declares hfirst] using ih

theorem isBlind_push (withBreak : Bool) (node : Node) : IsBlind (push withBreak node) where
  keeps := (nodesGrow_push withBreak node _ : NodesGrow anyWrites [] _ _).persist.isDeclared
  comm {property nodes} value hdeclared := by
    rw [push, push, isEmpty_congr_map (map_declare (k := fun _ => ()) (fun _ _ => rfl) hdeclared)]
    split_ifs <;> rw [declare_append_of_isDeclared hdeclared]

theorem isBlind_insertProperty (property value : String) :
    IsBlind (insertProperty property value) where
  keeps := (nodesPersist_insertProperty property value _ : NodesPersist anyWrites [] _ _).isDeclared
  comm {other nodes} written hdeclared := by
    have hlast : lastIndex? Node.isCustomProperty (declare other written nodes) =
        lastIndex? Node.isCustomProperty nodes :=
      lastIndex?_congr (map_declare (fun _ _ => rfl) hdeclared)
    have hlength : (declare other written nodes).length = nodes.length := by
      simpa using congrArg List.length (map_declare (k := fun _ => ()) (fun _ _ => rfl) hdeclared)
    rw [insertProperty, insertProperty, isDeclared_declare_of_isDeclared hdeclared, hlast, hlength]
    split_ifs with h
    · rfl
    · have hnode : ¬(Node.declaration property value {}).declares other := by
        rw [declares_declaration, beq_iff_eq]
        rintro rfl
        exact h hdeclared
      have hinsert (index : Nat) := declare_insert hnode written (nodes.take index)
        (nodes.drop index)
      simp only [List.take_append_drop, List.length_take] at hinsert
      rw [hinsert, ← hlength, ← List.take_eq_take_min, ← List.drop_eq_drop_min]

/-- An assignment that may not replace. -/
theorem assign_false (property value : String) (nodes : List Node) :
    assign false property value nodes =
      if isDeclared property nodes then nodes else nodes ++ [.declaration property value {}] := by
  by_cases hdeclared : isDeclared property nodes
  · simp [assign, hdeclared]
  · simp [assign, hdeclared, declare_eq_append hdeclared]

theorem isBlind_assign (property value : String) : IsBlind (assign false property value) where
  keeps := (nodesPersist_assign (by simp) _ : NodesPersist anyWrites [] _ _).isDeclared
  comm {other nodes} written hdeclared := by
    rw [assign_false, assign_false, isDeclared_declare_of_isDeclared hdeclared]
    split_ifs
    · rfl
    · rw [declare_append_of_isDeclared hdeclared]

/-! ### Edits beside a place -/

/-- **An edit is beside a place** if it does the same whatever is inside the first node there. -/
def IsBeside (place : Place) (g : List Node → List Node) : Prop :=
  ∀ f nodes, g (inside place f nodes) = inside place f (g nodes)

namespace IsBeside

theorem comp (hg : IsBeside place g) (hh : IsBeside place h) :
    IsBeside place fun nodes => g (h nodes) := by
  intro f nodes
  show g (h (inside place f nodes)) = _
  rw [hh f nodes, hg f (h nodes)]

theorem foldl {α : Type} {edit : List Node → α → List Node} {edits : List α}
    (hedit : ∀ x ∈ edits, IsBeside place fun nodes => edit nodes x) :
    IsBeside place fun nodes => edits.foldl edit nodes := by
  induction edits with
  | nil => exact fun _ _ => rfl
  | cons first rest ih =>
    obtain ⟨hfirst, hrest⟩ := List.forall_mem_cons.mp hedit
    exact (ih hrest).comp hfirst

/-- An edit that is not made under a condition. -/
theorem otherwise {c : Prop} [Decidable c] (hg : IsBeside place g) :
    IsBeside place fun nodes => if c then nodes else g nodes := by
  intro f nodes
  dsimp only
  split_ifs
  · rfl
  · exact hg f nodes

end IsBeside

theorem inside_append_behind {front : List Node} (hfront : ∀ node ∈ front, ¬place.isAt node)
    (nodes : List Node) : inside place f (front ++ nodes) = front ++ inside place f nodes := by
  induction front with
  | nil => rfl
  | cons node front ih =>
    obtain ⟨hnode, hfront⟩ := List.forall_mem_cons.mp hfront
    rw [List.cons_append, inside_cons_of_not_isAt hnode, ih hfront, List.cons_append]

theorem inside_append_of_not_isAt {new : List Node} (hnew : ∀ node ∈ new, ¬place.isAt node)
    (nodes : List Node) : inside place f (nodes ++ new) = inside place f nodes ++ new := by
  induction nodes with
  | nil => simpa [inside] using inside_append_behind (f := f) hnew []
  | cons node rest ih =>
    by_cases hat : place.isAt node
    · rw [List.cons_append, inside_cons_of_isAt hat, inside_cons_of_isAt hat, List.cons_append]
    · rw [List.cons_append, inside_cons_of_not_isAt hat, inside_cons_of_not_isAt hat,
        List.cons_append, ih]

/-- Behind the first node at a place, anything may be added. -/
theorem inside_append_of_any (hany : nodes.any place.isAt) (new : List Node) :
    inside place f (nodes ++ new) = inside place f nodes ++ new := by
  induction nodes with
  | nil => cases hany
  | cons node rest ih =>
    by_cases hat : place.isAt node
    · rw [List.cons_append, inside_cons_of_isAt hat, inside_cons_of_isAt hat, List.cons_append]
    · rw [List.cons_append, inside_cons_of_not_isAt hat, inside_cons_of_not_isAt hat,
        List.cons_append, ih (by simpa [hat] using hany)]

theorem isEmpty_inside (place : Place) (f : List Node → List Node) (nodes : List Node) :
    (inside place f nodes).isEmpty = nodes.isEmpty :=
  isEmpty_congr_map (map_inside (k := fun _ => ()) (fun _ _ => rfl) nodes)

theorem isBeside_push (hnode : ¬place.isAt node) (withBreak : Bool) :
    IsBeside place (push withBreak node) := by
  intro f nodes
  rw [push, push, isEmpty_inside]
  have hmarker : ¬place.isAt breakMarker := Place.not_isAt_of_none rfl rfl
  split_ifs <;> rw [inside_append_of_not_isAt (by simp [hnode, hmarker])]

theorem any_isAt_inside (other place : Place) (f : List Node → List Node) (nodes : List Node) :
    (inside place f nodes).any other.isAt = nodes.any other.isAt :=
  any_congr_map (map_inside (fun node _ => Place.isAt_fill other f node) nodes)

theorem isBeside_reach (hne : other ≠ place) (withBreak : Bool) :
    IsBeside place (reach other withBreak) := by
  intro f nodes
  rw [reach, reach, any_isAt_inside]
  split_ifs
  · rfl
  · exact isBeside_push (Place.not_isAt_of_ne (isAt_fresh other) hne) withBreak f nodes

/-- **What enters another place is beside this one.** -/
theorem isBeside_enter (hne : other ≠ place) (withBreak : Bool) (g : List Node → List Node) :
    IsBeside place (enter other withBreak g) := by
  intro f nodes
  rw [enter, enter, isBeside_reach hne withBreak, inside_comm hne]

/-! ### Plugins -/

theorem Node.layout_fill (f : List Node → List Node) (node : Node) :
    (node.fill f).layout = node.layout := by
  cases node with
  | statement name params layout =>
    unfold Node.fill
    split_ifs <;> rfl
  | _ => rfl

theorem Node.fill_withLayout (f : List Node → List Node) (node : Node) (layout : Layout) :
    (node.withLayout layout).fill f = (node.fill f).withLayout layout := by
  cases node with
  | statement name params _ =>
    unfold Node.withLayout Node.fill
    dsimp only
    split_ifs <;> rfl
  | _ => rfl

theorem Node.fill_loosen (f : List Node → List Node) (node : Node) :
    node.loosen.fill f = (node.fill f).loosen := by
  rw [Node.loosen_eq, Node.loosen_eq, Node.fill_withLayout, Node.layout_fill]

theorem insertAt_of_nil (index : Nat) (new : List Node) : insertAt index new [] = new := by
  unfold insertAt
  split_ifs with hempty
  · exact (List.isEmpty_iff.mp hempty).symm
  · simp

theorem insertAt_zero_cons {new : List Node} (hne : new ≠ []) (next : Node) (rest : List Node) :
    insertAt 0 new (next :: rest) = new ++ next.loosen :: rest := by
  simp [insertAt, hne]

theorem isBeside_insertAt {new : List Node} (hnew : ∀ node ∈ new, ¬place.isAt node)
    (index : Nat) : IsBeside place (insertAt index new) := by
  intro f nodes
  rcases eq_or_ne new [] with rfl | hne
  · rfl
  induction nodes generalizing index with
  | nil =>
    rw [inside, insertAt_of_nil]
    simpa [inside] using (inside_append_behind (f := f) hnew []).symm
  | cons node rest ih =>
    by_cases hat : place.isAt node
    · have hloosen : place.isAt node.loosen := by rwa [node.alike_loosen.isAt]
      rw [inside_cons_of_isAt hat]
      cases index with
      | zero =>
        rw [insertAt_zero_cons hne, insertAt_zero_cons hne, inside_append_behind hnew,
          inside_cons_of_isAt hloosen, Node.fill_loosen]
      | succ index => rw [insertAt_succ, insertAt_succ, inside_cons_of_isAt hat]
    · have hloosen : ¬place.isAt node.loosen := by rwa [node.alike_loosen.isAt]
      rw [inside_cons_of_not_isAt hat]
      cases index with
      | zero =>
        rw [insertAt_zero_cons hne, insertAt_zero_cons hne, inside_append_behind hnew,
          inside_cons_of_not_isAt hloosen]
      | succ index => rw [insertAt_succ, insertAt_succ, inside_cons_of_not_isAt hat, ih]

theorem lastAtRule?_inside (name : String) (nodes : List Node) :
    lastAtRule? name (inside place f nodes) = lastAtRule? name nodes :=
  lastIndex?_congr (map_inside (fun node _ => (node.alike_fill f).isAtRuleNamed name) nodes)

/-- Plugins are beside all places but their own. -/
theorem isBeside_ensurePlugin (hplace : ∀ params, place ≠ .atRule "plugin" params)
    (params : String) : IsBeside place (ensurePlugin params) := by
  intro f nodes
  have hloads : (inside place f nodes).any (Node.loadsPlugin (quotedPlugin params)) =
      nodes.any (Node.loadsPlugin (quotedPlugin params)) := by
    refine any_congr_map (map_inside (fun node _ => ?_) nodes)
    rw [Node.loadsPlugin, Node.loadsPlugin, (node.alike_fill f).atRule]
  have hplugin : ¬place.isAt (.statement "plugin" (writtenPlugin params) {}) := by
    rw [Place.isAt_of_atRule? rfl]
    exact hplace (writtenPlugin params)
  have hmarker : ¬place.isAt breakMarker := Place.not_isAt_of_none rfl rfl
  rw [ensurePlugin_eq, ensurePlugin_eq, hloads, lastAtRule?_inside, lastAtRule?_inside]
  split_ifs
  · rfl
  · split <;> exact isBeside_insertAt (by simp [hplugin, hmarker]) _ f nodes

end Restyle.Css
