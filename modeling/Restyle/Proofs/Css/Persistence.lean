import Restyle.Proofs.Css.Revision

/-!
# What persists at every level

Growth (`Restyle.Css.SheetGrows`) is for edits that add nodes inside a container at its end
only. Variables are also inserted between the declarations of a container, and so more may
happen to a tree that is still there: at every level, nodes may be inserted anywhere
(`Restyle.Css.NodesPersist`). What was there is kept, in its order, each node as what it was and
in its layout, but that white space in front of it that is empty may be forgotten, and that an
at-rule without a body may get one (`Restyle.Css.Node.Persists`).

A declaration keeps its value, or it is the first of its property and takes one that is written
there; paths are counted by the nodes that were there before. A node that is inserted **hides
nothing** (`Restyle.Css.Node.HidesNothing`): behind it there is none at its place and none that
declares its property. So a path leads where it led before
(`Restyle.Css.NodesPersist.containerAt?`), and a property has the value that it had, or one that
is written (`Restyle.Css.NodesPersist.valueOf?`).
-/

namespace Restyle.Css

/-! ### The relation -/

/-- A layout is kept, but that nothing in front may be forgotten. -/
def Layout.Persists (layout kept : Layout) : Prop :=
  kept = layout ∨ layout.before = some "" ∧ kept = { layout with before := none }

/-- **A node hides nothing** of the nodes behind it: none of them is at its place, and none
declares its property. -/
structure Node.HidesNothing (node : Node) (nodes : List Node) : Prop where
  place : ∀ place : Place, place.isAt node → ∀ other ∈ nodes, ¬place.isAt other
  property : ∀ property, node.declares property → ∀ other ∈ nodes, ¬other.declares property

mutual

/-- **A node persists**, behind the nodes `seen` of its container. -/
inductive Node.Persists : (writes : Writes) → (seen : List Node) → Node → Node → Prop
  | rule {writes seen selector nodes nodes' layout layout'} : layout.Persists layout' →
      NodesPersist (writes.into seen (.rule selector)) [] nodes nodes' →
      Node.Persists writes seen (.rule selector nodes layout) (.rule selector nodes' layout')
  | block {writes seen name params nodes nodes' layout layout'} : layout.Persists layout' →
      NodesPersist (writes.into seen (.atRule name params)) [] nodes nodes' →
      Node.Persists writes seen (.block name params nodes layout)
        (.block name params nodes' layout')
  | statement {writes seen name params layout layout'} : layout.Persists layout' →
      Node.Persists writes seen (.statement name params layout) (.statement name params layout')
  /-- An at-rule without a body gets one. -/
  | opened {writes seen name params nodes layout layout'} : layout.Persists layout' →
      Node.Persists writes seen (.statement name params layout) (.block name params nodes layout')
  | declaration {writes seen property value layout layout'} : layout.Persists layout' →
      Node.Persists writes seen (.declaration property value layout)
        (.declaration property value layout')
  /-- The first declaration of a property takes a value. -/
  | written {writes seen property value value' layout layout'} : layout.Persists layout' →
      (∀ other ∈ seen, ¬other.declares property) → writes [] property value' →
      Node.Persists writes seen (.declaration property value layout)
        (.declaration property value' layout')
  | comment {writes seen text layout layout'} : layout.Persists layout' →
      Node.Persists writes seen (.comment text layout) (.comment text layout')

/-- **Nodes persist** among others, behind the nodes `seen` of their container. -/
inductive NodesPersist : (writes : Writes) → (seen : List Node) → List Node → List Node → Prop
  | added {writes seen new} : NodesPersist writes seen [] new
  | insert {writes seen old new node} : node.HidesNothing old → NodesPersist writes seen old new →
      NodesPersist writes seen old (node :: new)
  | keep {writes seen old new node kept} : node.Persists writes seen kept →
      NodesPersist writes (seen ++ [node]) old new →
      NodesPersist writes seen (node :: old) (kept :: new)

end

/-- Anything may be written. -/
def anyWrites : Writes := fun _ _ _ => True

/-- Nothing may be written. -/
def noWrites : Writes := fun _ _ _ => False

variable {writes writes' whole : Writes} {seen seen' old new : List Node}
  {node other kept : Node} {place : Place}

/-! ### Layouts and hiding -/

theorem Layout.Persists.refl (layout : Layout) : layout.Persists layout := .inl rfl

theorem Layout.Persists.trans {layout middle last : Layout} (h : layout.Persists middle)
    (h' : middle.Persists last) : layout.Persists last := by
  rcases h with rfl | ⟨hbefore, rfl⟩
  · exact h'
  · rcases h' with rfl | ⟨hnone, -⟩
    · exact .inr ⟨hbefore, rfl⟩
    · cases hnone

/-- A node that persists is still what it was. -/
theorem Node.Persists.alike (h : node.Persists writes seen kept) : node.Alike kept := by
  cases h <;> exact ⟨rfl, rfl, rfl⟩

/-- Induction along the nodes of one container, whatever is inside them. -/
@[elab_as_elim]
theorem NodesPersist.induction {writes : Writes}
    {motive : ∀ seen old new, NodesPersist writes seen old new → Prop}
    (added : ∀ {seen new}, motive seen [] new .added)
    (insert : ∀ {seen old new node} (hhides : node.HidesNothing old)
      (hrest : NodesPersist writes seen old new), motive seen old new hrest →
        motive seen old (node :: new) (.insert hhides hrest))
    (keep : ∀ {seen old new node kept} (hnode : node.Persists writes seen kept)
      (hrest : NodesPersist writes (seen ++ [node]) old new),
        motive (seen ++ [node]) old new hrest → motive seen (node :: old) (kept :: new)
          (.keep hnode hrest)) :
    ∀ {seen old new} (h : NodesPersist writes seen old new), motive seen old new h
  | _, _, _, .added => added
  | _, _, _, .insert hhides hrest =>
    insert hhides hrest (NodesPersist.induction added insert keep hrest)
  | _, _, _, .keep hnode hrest =>
    keep hnode hrest (NodesPersist.induction added insert keep hrest)

/-- Whatever was there is there. -/
theorem NodesPersist.exists_alike (h : NodesPersist writes seen old new) (hmem : other ∈ old) :
    ∃ kept ∈ new, other.Alike kept := by
  induction h using NodesPersist.induction with
  | added => exact absurd hmem List.not_mem_nil
  | insert _ _ ih =>
    obtain ⟨kept, hkept, halike⟩ := ih hmem
    exact ⟨kept, List.mem_cons_of_mem _ hkept, halike⟩
  | keep hnode _ ih =>
    rcases List.mem_cons.mp hmem with rfl | hmem
    · exact ⟨_, List.mem_cons_self, hnode.alike⟩
    · obtain ⟨kept, hkept, halike⟩ := ih hmem
      exact ⟨kept, List.mem_cons_of_mem _ hkept, halike⟩

/-- A test that nodes pass together with those that are alike is still passed. -/
theorem NodesPersist.any (h : NodesPersist writes seen old new) {p : Node → Bool}
    (hp : ∀ {node other : Node}, node.Alike other → p other = p node) (hany : old.any p) :
    new.any p := by
  obtain ⟨node, hnode, hpasses⟩ := List.any_eq_true.mp hany
  obtain ⟨kept, hkept, halike⟩ := h.exists_alike hnode
  exact List.any_eq_true.mpr ⟨kept, hkept, (hp halike).trans hpasses⟩

/-- What hides nothing of the nodes now hid nothing of those before. -/
theorem Node.HidesNothing.of_persist (hhides : node.HidesNothing new)
    (h : NodesPersist writes seen old new) : node.HidesNothing old where
  place place hat other hother := by
    obtain ⟨kept, hkept, halike⟩ := h.exists_alike hother
    rw [← halike.isAt]
    exact hhides.place place hat kept hkept
  property property hdeclares other hother := by
    obtain ⟨kept, hkept, halike⟩ := h.exists_alike hother
    rw [← halike.declares]
    exact hhides.property property hdeclares kept hkept

theorem Node.HidesNothing.congr (h : node.HidesNothing old) (halike : node.Alike other) :
    other.HidesNothing old where
  place place hat := h.place place (halike.isAt place ▸ hat)
  property property hdeclares := h.property property (halike.declares property ▸ hdeclares)

/-- What hides nothing is not at the place of a node behind it. -/
theorem Node.HidesNothing.not_isAt (h : node.HidesNothing old) (hother : other ∈ old)
    (hat : place.isAt other) : ¬place.isAt node :=
  fun hnode => h.place place hnode other hother hat

/-- Nor does it declare a property that is declared behind it. -/
theorem Node.HidesNothing.not_declares {property : String} (h : node.HidesNothing old)
    (hdeclared : isDeclared property old) : ¬node.declares property := by
  obtain ⟨other, hother, hdeclares⟩ := List.any_eq_true.mp hdeclared
  exact fun hnode => h.property property hnode other hother hdeclares

/-! ### One change after another -/

mutual

theorem Node.Persists.refl (writes : Writes) (seen : List Node) :
    ∀ node : Node, node.Persists writes seen node
  | .rule _ nodes layout => .rule (.refl layout) (NodesPersist.refl _ [] nodes)
  | .block _ _ nodes layout => .block (.refl layout) (NodesPersist.refl _ [] nodes)
  | .statement _ _ layout => .statement (.refl layout)
  | .declaration _ _ layout => .declaration (.refl layout)
  | .comment _ layout => .comment (.refl layout)

theorem NodesPersist.refl (writes : Writes) (seen : List Node) :
    ∀ nodes : List Node, NodesPersist writes seen nodes nodes
  | [] => .added
  | node :: rest => .keep (Node.Persists.refl writes seen node) (NodesPersist.refl writes _ rest)

end

mutual

theorem Node.Persists.trans {writes writes' whole : Writes} (hw : writes.Within whole)
    (hw' : writes'.Within whole) {seen seen' : List Node} (hseen : Covers seen seen')
    {node middle last : Node} (h : node.Persists writes seen middle) :
    middle.Persists writes' seen' last → node.Persists whole seen last
  | .rule hlayout' hnodes' => by
    cases h with
    | rule hlayout hnodes =>
      exact .rule (hlayout.trans hlayout')
        (NodesPersist.trans (hw.into (.refl seen) _) (hw'.into hseen _) (.refl []) hnodes hnodes')
  | .block hlayout' hnodes' => by
    cases h with
    | block hlayout hnodes =>
      exact .block (hlayout.trans hlayout')
        (NodesPersist.trans (hw.into (.refl seen) _) (hw'.into hseen _) (.refl []) hnodes hnodes')
    | opened hlayout => exact .opened (hlayout.trans hlayout')
  | .statement hlayout' => by
    cases h with
    | statement hlayout => exact .statement (hlayout.trans hlayout')
  | .opened hlayout' => by
    cases h with
    | statement hlayout => exact .opened (hlayout.trans hlayout')
  | .declaration hlayout' => by
    cases h with
    | declaration hlayout => exact .declaration (hlayout.trans hlayout')
    | written hlayout hfirst hwrite =>
      exact .written (hlayout.trans hlayout') hfirst (hw _ _ _ hwrite)
  | .written hlayout' hfirst' hwrite' => by
    -- What is the first of its property among more nodes is so among those that were there.
    have hwrite := hw' _ _ _ hwrite'
    cases h with
    | declaration hlayout =>
      exact .written (hlayout.trans hlayout') (hseen.property _ hfirst') hwrite
    | written hlayout hfirst _ => exact .written (hlayout.trans hlayout') hfirst hwrite
  | .comment hlayout' => by
    cases h with
    | comment hlayout => exact .comment (hlayout.trans hlayout')

/-- **What persists twice persists**, by what was written the first and the second time. -/
theorem NodesPersist.trans {writes writes' whole : Writes} (hw : writes.Within whole)
    (hw' : writes'.Within whole) {seen seen' : List Node} (hseen : Covers seen seen')
    {old middle new : List Node} (h : NodesPersist writes seen old middle) :
    NodesPersist writes' seen' middle new → NodesPersist whole seen old new
  | .added => by
    cases h
    exact .added
  | .insert hhides hrest =>
    .insert (hhides.of_persist h) (NodesPersist.trans hw hw' hseen h hrest)
  | .keep hnode hrest => by
    cases h with
    | added => exact .added
    | insert hhides hold =>
      exact .insert (hhides.congr hnode.alike)
        (NodesPersist.trans hw hw' (hseen.append_right _) hold hrest)
    | keep hold holdrest =>
      exact .keep (Node.Persists.trans hw hw' hseen hold hnode)
        (NodesPersist.trans hw hw' (hseen.append hold.alike) holdrest hrest)

end

/-- In a row, by the same writes. -/
theorem NodesPersist.andThen {middle : List Node} (h : NodesPersist writes [] old middle)
    (h' : NodesPersist writes [] middle new) : NodesPersist writes [] old new :=
  h.trans (fun _ _ _ hw => hw) (fun _ _ _ hw => hw) (.refl []) h'

/-- An edit that is not made under a condition. -/
theorem NodesPersist.otherwise {c : Prop} [Decidable c] (h : NodesPersist writes seen old new) :
    NodesPersist writes seen old (if c then old else new) := by
  split_ifs
  · exact .refl writes seen old
  · exact h

theorem NodesPersist.mono (hw : writes.Within writes') (hseen : Covers seen' seen)
    (h : NodesPersist writes seen old new) : NodesPersist writes' seen' old new :=
  (NodesPersist.refl writes seen' old).trans hw hw hseen h

/-! ### Growth -/

theorem Node.persists_loosen (writes : Writes) (seen : List Node) (node : Node) :
    node.Persists writes seen node.loosen := by
  unfold Node.loosen
  split_ifs with hbefore
  · cases node with
    | rule selector nodes layout => exact .rule (.inr ⟨hbefore, rfl⟩) (.refl _ [] nodes)
    | block name params nodes layout => exact .block (.inr ⟨hbefore, rfl⟩) (.refl _ [] nodes)
    | statement name params layout => exact .statement (.inr ⟨hbefore, rfl⟩)
    | declaration property value layout => exact .declaration (.inr ⟨hbefore, rfl⟩)
    | comment text layout => exact .comment (.inr ⟨hbefore, rfl⟩)
  · exact .refl writes seen node

mutual

theorem Node.Grows.persists {writes : Writes} {seen : List Node} :
    ∀ {node grown : Node}, node.Grows writes seen grown → node.Persists writes seen grown
  | .rule .., _, ⟨_, rfl, hnodes⟩ => .rule (.refl _) hnodes.persist
  | .block .., _, ⟨_, rfl, hnodes⟩ => .block (.refl _) hnodes.persist
  | .statement .., _, .inl rfl => .statement (.refl _)
  | .statement .., _, .inr ⟨_, _, rfl⟩ => .opened (.refl _)
  | .declaration .., _, ⟨_, rfl, .inl rfl⟩ => .declaration (.refl _)
  | .declaration .., _, ⟨_, rfl, .inr ⟨hfirst, hwrite⟩⟩ => .written (.refl _) hfirst hwrite
  | .comment .., _, rfl => .comment (.refl _)

theorem NodesGrow.persist {writes : Writes} {seen : List Node} :
    ∀ {old new : List Node}, NodesGrow writes seen old new → NodesPersist writes seen old new
  | [], _, _ => .added
  | _ :: _, [], h => h.elim
  | _ :: _, _ :: _, ⟨hnode, hrest⟩ => .keep hnode.persists hrest.persist

end

/-- **What grows persists.** -/
theorem SheetGrows.persist {behindNew : Bool} (h : SheetGrows writes behindNew seen old new) :
    NodesPersist writes seen old new := by
  induction h with
  | added => exact .added
  | insert hdeclaration hplace _ ih =>
    exact .insert ⟨hplace, by simp [Node.declares, hdeclaration]⟩ ih
  | keep hgrows hkept _ ih =>
    refine .keep ?_ ih
    rcases hkept with rfl | ⟨-, rfl⟩
    · exact hgrows.persists
    · exact hgrows.persists.trans (fun _ _ _ h => h) (fun _ _ _ h => h) (.refl _)
        (Node.persists_loosen _ _ _)

/-! ### Edits -/

/-- A node is inserted in front of nodes of which it hides none. -/
theorem nodesPersist_insert {front back : List Node} (hhides : node.HidesNothing back) :
    NodesPersist writes seen (front ++ back) (front ++ node :: back) := by
  induction front generalizing seen with
  | nil => exact .insert hhides (.refl writes seen back)
  | cons first front ih => exact .keep (.refl writes seen first) ih

/-- A property is inserted only where it is not declared. -/
theorem nodesPersist_insertProperty (property value : String) (nodes : List Node) :
    NodesPersist writes seen nodes (insertProperty property value nodes) := by
  unfold insertProperty
  split_ifs with hdeclared
  · exact .refl writes seen nodes
  · have hhides (index : Nat) :
        (Node.declaration property value {}).HidesNothing (nodes.drop index) := by
      constructor
      · exact fun place hat => absurd hat (Place.not_isAt_of_none rfl rfl)
      · intro other hother node hnode hdeclares
        obtain rfl : property = other := by simpa [declares_declaration] using hother
        exact hdeclared (List.any_eq_true.mpr ⟨node, List.mem_of_mem_drop hnode, hdeclares⟩)
    have hinsert (index : Nat) : NodesPersist writes seen nodes
        (nodes.take index ++ .declaration property value {} :: nodes.drop index) := by
      have hsplit : NodesPersist writes seen (nodes.take index ++ nodes.drop index)
          (nodes.take index ++ .declaration property value {} :: nodes.drop index) :=
        nodesPersist_insert (hhides index)
      rwa [List.take_append_drop] at hsplit
    exact hinsert _

theorem nodesPersist_declare {property value : String} (hwrite : writes [] property value)
    (nodes : List Node) : NodesPersist writes [] nodes (declare property value nodes) :=
  (nodesGrow_declare hwrite nodes (by simp)).persist

theorem declare_eq_append {property : String} {nodes : List Node} (h : ¬isDeclared property nodes)
    (value : String) :
    declare property value nodes = nodes ++ [.declaration property value {}] := by
  induction nodes with
  | nil => rfl
  | cons node rest ih =>
    rw [isDeclared, List.any_cons, Bool.or_eq_true, not_or] at h
    rw [declare_cons_of_not_declares h.1, ih h.2, List.cons_append]

/-- An assignment writes only if it may replace. -/
theorem nodesPersist_assign {overwrite : Bool} {property value : String}
    (hwrite : overwrite → writes [] property value) (nodes : List Node) :
    NodesPersist writes [] nodes (assign overwrite property value nodes) := by
  unfold assign
  split_ifs with h
  · cases overwrite with
    | true => exact nodesPersist_declare (hwrite rfl) nodes
    | false =>
      rw [declare_eq_append (by simpa using h)]
      exact (nodesGrow_append writes [] nodes _).persist
  · exact .refl writes [] nodes

/-- A node at a place persists when what is inside it does. -/
theorem Node.persists_fill {f : List Node → List Node} (hplace : place.isAt node)
    (hseen : ∀ other ∈ seen, ¬place.isAt other)
    (hf : ∀ nodes, NodesPersist (fun path => writes (place :: path)) [] nodes (f nodes)) :
    node.Persists writes seen (node.fill f) := by
  have hinner (nodes : List Node) : NodesPersist (writes.into seen place) [] nodes (f nodes) :=
    (hf nodes).mono (Writes.within_into hseen) (.refl [])
  cases node with
  | rule selector nodes layout =>
    obtain rfl := Place.isAt_rule.mp hplace
    exact .rule (.refl layout) (hinner nodes)
  | block name params nodes layout =>
    obtain rfl := (Place.isAt_of_atRule? rfl).mp hplace
    exact .block (.refl layout) (hinner nodes)
  | statement name params layout =>
    unfold Node.fill
    split_ifs
    · exact .statement (.refl layout)
    · exact .opened (.refl layout)
  | declaration property value layout => exact .declaration (.refl layout)
  | comment text layout => exact .comment (.refl layout)

/-- The first node at a place is the one that changes. -/
theorem nodesPersist_inside {f : List Node → List Node}
    (hf : ∀ nodes, NodesPersist (fun path => writes (place :: path)) [] nodes (f nodes))
    (hseen : ∀ other ∈ seen, ¬place.isAt other) (nodes : List Node) :
    NodesPersist writes seen nodes (inside place f nodes) := by
  induction nodes generalizing seen with
  | nil => exact .added
  | cons node rest ih =>
    by_cases hat : place.isAt node
    · rw [inside_cons_of_isAt hat]
      exact .keep (Node.persists_fill hat hseen hf) (.refl writes _ rest)
    · rw [inside_cons_of_not_isAt hat]
      refine .keep (.refl writes seen node) (ih ?_)
      simpa [or_imp, forall_and, hat] using hseen

/-- An edit at a place, which is made where it is missing. -/
theorem nodesPersist_enter {f : List Node → List Node} (withBreak : Bool)
    (hf : ∀ nodes, NodesPersist (fun path => writes (place :: path)) [] nodes (f nodes))
    (nodes : List Node) : NodesPersist writes [] nodes (enter place withBreak f nodes) :=
  (nodesGrow_reach place withBreak nodes).persist.andThen
    (nodesPersist_inside hf (by simp) (reach place withBreak nodes))

/-- Edits one after the other, as a fold. -/
theorem nodesPersist_foldl {α : Type} {edit : List Node → α → List Node} {edits : List α}
    (hedit : ∀ x ∈ edits, ∀ nodes, NodesPersist writes [] nodes (edit nodes x))
    (nodes : List Node) : NodesPersist writes [] nodes (edits.foldl edit nodes) := by
  induction edits generalizing nodes with
  | nil => exact .refl writes [] nodes
  | cons first rest ih =>
    obtain ⟨hfirst, hrest⟩ := List.forall_mem_cons.mp hedit
    exact (hfirst nodes).andThen (ih hrest (edit nodes first))

/-! ### What a path leads to -/

theorem Node.Persists.children (h : node.Persists writes seen kept) (hplace : place.isAt node) :
    NodesPersist (fun path => writes (place :: path)) [] node.children kept.children := by
  have hwithin : (writes.into seen place).Within (fun path => writes (place :: path)) :=
    fun _ _ _ hw => hw.2
  cases h with
  | rule _ hnodes =>
    obtain rfl := Place.isAt_rule.mp hplace
    exact hnodes.mono hwithin (.refl [])
  | block _ hnodes =>
    obtain rfl := (Place.isAt_of_atRule? rfl).mp hplace
    exact hnodes.mono hwithin (.refl [])
  | _ => exact .added

/-- What is found at a place is found there again. -/
theorem NodesPersist.find? (h : NodesPersist writes seen old new)
    (hfind : Css.find? place old = some node) :
    ∃ kept, Css.find? place new = some kept ∧
      NodesPersist (fun path => writes (place :: path)) [] node.children kept.children := by
  induction h using NodesPersist.induction with
  | added => simp [Css.find?] at hfind
  | insert hhides _ ih =>
    obtain ⟨kept, hkept, hchildren⟩ := ih hfind
    have hnot := hhides.not_isAt (List.mem_of_find?_eq_some hfind) (isAt_of_find? hfind)
    exact ⟨kept, by simpa [Css.find?, hnot] using hkept, hchildren⟩
  | @keep _ _ _ first last hnode _ ih =>
    by_cases hat : place.isAt first
    · obtain rfl : first = node := by simpa [Css.find?, hat] using hfind
      exact ⟨last, by simp [Css.find?, hnode.alike.isAt, hat], hnode.children hat⟩
    · obtain ⟨kept, hkept, hchildren⟩ := ih (by simpa [Css.find?, hat] using hfind)
      exact ⟨kept, by simpa [Css.find?, hnode.alike.isAt, hat] using hkept, hchildren⟩

/-- **A path leads to the same container.** -/
theorem NodesPersist.containerAt? {path : List Place} {inner : List Node}
    (h : NodesPersist writes [] old new) (hinner : Css.containerAt? path old = some inner) :
    ∃ inner', Css.containerAt? path new = some inner' ∧
      NodesPersist (fun places => writes (path ++ places)) [] inner inner' := by
  induction path generalizing writes old new with
  | nil =>
    cases hinner
    exact ⟨new, rfl, h⟩
  | cons place path ih =>
    obtain ⟨node, hnode, hinner⟩ := Option.bind_eq_some_iff.mp hinner
    obtain ⟨kept, hkept, hchildren⟩ := h.find? hnode
    obtain ⟨inner', hinner', hpersist⟩ := ih hchildren hinner
    exact ⟨inner', by simp [Css.containerAt?, hkept, hinner'], hpersist⟩

/-- **A property keeps its value, or takes one that is written.** -/
theorem NodesPersist.valueOf? {property value : String} (h : NodesPersist writes seen old new)
    (hvalue : Css.valueOf? property old = some value) :
    ∃ value', Css.valueOf? property new = some value' ∧
      (value' = value ∨ writes [] property value') := by
  induction h using NodesPersist.induction with
  | added => simp [Css.valueOf?] at hvalue
  | @insert _ old _ _ hhides _ ih =>
    have hdeclared : isDeclared property old := by rw [← isSome_valueOf?, hvalue]; rfl
    rw [valueOf?_cons_of_not_declares (hhides.not_declares hdeclared)]
    exact ih hvalue
  | @keep _ _ _ node _ hnode _ ih =>
    by_cases hdeclares : node.declares property
    · have hdeclared {name value : String} {layout : Layout}
          (h : (Node.declaration name value layout).declares property) : name = property := by
        simpa [declares_declaration] using h
      cases hnode with
      | declaration =>
        rw [valueOf?_declaration, if_pos (hdeclared hdeclares)] at hvalue
        exact ⟨value, by rw [valueOf?_declaration, if_pos (hdeclared hdeclares), hvalue], .inl rfl⟩
      | written _ _ hwrite =>
        obtain rfl := hdeclared hdeclares
        exact ⟨_, by rw [valueOf?_declaration, if_pos rfl], .inr hwrite⟩
      | _ => simp [Node.declares, Node.declaration?] at hdeclares
    · rw [valueOf?_cons_of_not_declares hdeclares] at hvalue
      rw [valueOf?_cons_of_not_declares (by rwa [hnode.alike.declares])]
      exact ih hvalue

end Restyle.Css
