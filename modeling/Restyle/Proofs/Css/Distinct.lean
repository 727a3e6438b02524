import Mathlib.Data.List.Nodup
import Mathlib.Data.List.ReduceOption
import Restyle.Proofs.Css.Blindness

/-!
# Nodes that are told apart

What is looked for before a node is added is a **label**: the selector of a rule, the name and
the parameters of an at-rule, the property of a declaration. The nodes of a container are
distinct if no label is there twice, in the container and in any container inside
(`Restyle.Css.AreDistinct`). Comments have no label, and there may be any number of them.

The routes by which nodes get into a tree differ in what they write and where, but each of them
looks for the label that it then writes. So the labels of a container are afterwards what they
were, or one that was missing is added behind them (`Restyle.Css.TakesLabel`); imports and plugins
are added between the others.

A plugin may be written in several ways, and its label does not tell that two of them are the
same. Plugins are compared by their names in double quotes (`Restyle.Css.quotedPlugin`), and a
style sheet is **canonical** if it is distinct and states no plugin twice
(`Restyle.Css.IsCanonical`).
-/

namespace Restyle.Css

/-! ### Labels -/

/-- What the nodes of a container are told apart by. -/
inductive Label where
  | rule (selector : String)
  | atRule (name params : String)
  | property (name : String)
  deriving DecidableEq, Repr

/-- The label of a node. A comment has none. -/
def Node.label? : Node → Option Label
  | .rule selector _ _ => some (.rule selector)
  | .block name params _ _ => some (.atRule name params)
  | .statement name params _ => some (.atRule name params)
  | .declaration property _ _ => some (.property property)
  | .comment _ _ => none

/-- The label of what is at a place. -/
def Place.label : Place → Label
  | rule selector => .rule selector
  | atRule name params => .atRule name params

/-- The labels of some nodes in their order, `none` for each comment. -/
def labels (nodes : List Node) : List (Option Label) :=
  nodes.map Node.label?

variable {place : Place} {node other : Node} {nodes front rest new : List Node} {label : Label}
  {property value name params : String} {f : List Node → List Node}

theorem Place.isAt_iff_label? : place.isAt node ↔ node.label? = some place.label := by
  cases place <;> cases node <;>
    simp [isAt, label, Node.label?, Node.selector?, Node.atRule?]

theorem Node.declares_iff_label? :
    node.declares property ↔ node.label? = some (.property property) := by
  cases node <;> simp [declares, label?, declaration?]

/-- Nodes that are alike have the same label. -/
theorem Node.Alike.label? (h : node.Alike other) : other.label? = node.label? := by
  obtain ⟨hselector, hrule, hproperty⟩ := h
  cases node <;> cases other <;>
    simp_all [Node.label?, Node.selector?, Node.atRule?, Node.declaration?]

theorem any_isAt_iff_labels : nodes.any place.isAt ↔ some place.label ∈ labels nodes := by
  simp [labels, Place.isAt_iff_label?]

theorem isDeclared_iff_labels :
    isDeclared property nodes ↔ some (.property property) ∈ labels nodes := by
  simp [isDeclared, labels, Node.declares_iff_label?]

/-! ### One more label -/

/-- **A label is taken**: it was there, or it is added behind the others, and perhaps a break
marker in front of it. -/
inductive TakesLabel (label : Label) (old : List (Option Label)) : List (Option Label) → Prop
  | there : TakesLabel label old old
  | added : some label ∉ old → TakesLabel label old (old ++ [some label])
  | marked : some label ∉ old → TakesLabel label old (old ++ [none, some label])

theorem takesLabel_push (hnode : node.label? = some label) (hnew : some label ∉ labels nodes)
    (withBreak : Bool) : TakesLabel label (labels nodes) (labels (push withBreak node nodes)) := by
  unfold push
  split_ifs
  · have hlabels : labels (nodes ++ [breakMarker, node]) = labels nodes ++ [none, some label] := by
      rw [labels, List.map_append, List.map_cons, List.map_singleton, hnode]
      rfl
    exact hlabels ▸ .marked hnew
  · have hlabels : labels (nodes ++ [node]) = labels nodes ++ [some label] := by
      simp [labels, hnode]
    exact hlabels ▸ .added hnew

theorem takesLabel_reach (place : Place) (withBreak : Bool) (nodes : List Node) :
    TakesLabel place.label (labels nodes) (labels (reach place withBreak nodes)) := by
  unfold reach
  split_ifs with hany
  · exact .there
  · have hnew : some place.label ∉ labels nodes := fun h => hany (any_isAt_iff_labels.mpr h)
    exact takesLabel_push (Place.isAt_iff_label?.mp (isAt_fresh place)) hnew withBreak

/-- What is inside a node is no part of its label. -/
theorem labels_inside (place : Place) (f : List Node → List Node) (nodes : List Node) :
    labels (inside place f nodes) = labels nodes :=
  map_inside (fun node _ => (node.alike_fill f).label?) nodes

theorem takesLabel_enter (place : Place) (withBreak : Bool) (f : List Node → List Node)
    (nodes : List Node) :
    TakesLabel place.label (labels nodes) (labels (enter place withBreak f nodes)) := by
  rw [enter, labels_inside]
  exact takesLabel_reach place withBreak nodes

theorem takesLabel_ensureStatement (name params : String) (withBreak : Bool)
    (nodes : List Node) :
    TakesLabel (.atRule name params) (labels nodes)
      (labels (ensureStatement name params withBreak nodes)) := by
  unfold ensureStatement
  split_ifs with hany
  · exact .there
  · exact takesLabel_push rfl (fun h => hany (any_isAt_iff_labels.mpr h)) withBreak

theorem takesLabel_declare (property value : String) (nodes : List Node) :
    TakesLabel (.property property) (labels nodes) (labels (declare property value nodes)) := by
  by_cases hdeclared : isDeclared property nodes
  · have hlabels : labels (declare property value nodes) = labels nodes :=
      map_declare (fun _ _ => rfl) hdeclared
    exact hlabels ▸ .there
  · rw [declare_eq_append hdeclared]
    exact takesLabel_push rfl (fun h => hdeclared (isDeclared_iff_labels.mpr h)) false

/-- A label that is taken is not there twice. -/
theorem TakesLabel.nodup {old new : List (Option Label)} (h : TakesLabel label old new)
    (hold : old.reduceOption.Nodup) : new.reduceOption.Nodup := by
  have happend (hnew : some label ∉ old) : (old.reduceOption ++ [label]).Nodup := by
    refine List.nodup_append.mpr ⟨hold, List.nodup_singleton label, ?_⟩
    rintro other hother _ hlabel rfl
    rw [List.mem_singleton.mp hlabel, List.reduceOption_mem_iff] at hother
    exact hnew hother
  cases h with
  | there => exact hold
  | added hnew => simpa [List.reduceOption_append] using happend hnew
  | marked hnew => simpa [List.reduceOption_append] using happend hnew

/-! ### Labels in between -/

/-- Nodes the first of which starts a line of its own. -/
def loosenFirst : List Node → List Node
  | [] => []
  | node :: rest => node.loosen :: rest

/-- Insertion cuts a list of nodes in two, and puts the new ones in between. -/
theorem insertAt_eq (hnew : new ≠ []) (index : Nat) (nodes : List Node) :
    insertAt index new nodes = nodes.take index ++ new ++ loosenFirst (nodes.drop index) := by
  rw [insertAt, if_neg (by simpa using hnew)]
  cases nodes.drop index <;> rfl

/-- So does what is asked of each node, white space in front of it apart. -/
theorem map_insertAt {α : Type} {k : Node → α} (hk : ∀ node, k node.loosen = k node)
    (hnew : new ≠ []) (index : Nat) (nodes : List Node) :
    (insertAt index new nodes).map k =
      (nodes.take index).map k ++ new.map k ++ (nodes.drop index).map k := by
  have hfirst (rest : List Node) : (loosenFirst rest).map k = rest.map k := by
    cases rest with
    | nil => rfl
    | cons node rest => rw [loosenFirst, List.map_cons, List.map_cons, hk]
  rw [insertAt_eq hnew, List.map_append, List.map_append, hfirst]

theorem labels_insertAt (hnew : new ≠ []) (index : Nat) (nodes : List Node) :
    labels (insertAt index new nodes) =
      labels (nodes.take index) ++ labels new ++ labels (nodes.drop index) :=
  map_insertAt (fun node => node.alike_loosen.label?) hnew index nodes

/-- However it goes between the others, a new label is there once. -/
theorem nodup_insertAt (hnew : new ≠ []) (hlabel : (labels new).reduceOption = [label])
    (hmissing : some label ∉ labels nodes) (index : Nat)
    (h : (labels nodes).reduceOption.Nodup) :
    (labels (insertAt index new nodes)).reduceOption.Nodup := by
  have hsplit : labels nodes = labels (nodes.take index) ++ labels (nodes.drop index) := by
    rw [labels, labels, labels, ← List.map_append, List.take_append_drop]
  rw [labels_insertAt hnew, List.reduceOption_append, List.reduceOption_append, hlabel,
    List.append_assoc, List.singleton_append, List.nodup_middle, ← List.reduceOption_append,
    ← hsplit]
  exact List.nodup_cons.mpr ⟨fun hmem => hmissing (List.reduceOption_mem_iff.mp hmem), h⟩

/-! ### What is there after an edit -/

theorem mem_push {withBreak : Bool} (h : other ∈ push withBreak node nodes) :
    other ∈ nodes ∨ other = breakMarker ∨ other = node := by
  unfold push at h
  split_ifs at h
  · simpa using h
  · exact (List.mem_append.mp h).imp_right fun hmem => .inr (List.mem_singleton.mp hmem)

theorem mem_declare (h : node ∈ declare property value nodes) :
    node ∈ nodes ∨ node.children = [] := by
  induction nodes with
  | nil => exact .inr (by rw [List.mem_singleton.mp h]; rfl)
  | cons first rest ih =>
    by_cases hfirst : first.declares property
    · rw [declare_cons_of_declares hfirst] at h
      rcases List.mem_cons.mp h with rfl | h
      · exact .inr rfl
      · exact .inl (List.mem_cons_of_mem first h)
    · rw [declare_cons_of_not_declares hfirst] at h
      rcases List.mem_cons.mp h with rfl | h
      · exact .inl List.mem_cons_self
      · exact (ih h).imp_left (List.mem_cons_of_mem first)

/-- What is there was there, or it is the node that was filled. -/
theorem mem_inside (h : node ∈ inside place f nodes) :
    node ∈ nodes ∨ ∃ other ∈ nodes, place.isAt other ∧ node = other.fill f := by
  induction nodes with
  | nil => cases h
  | cons first rest ih =>
    by_cases hat : place.isAt first
    · rw [inside_cons_of_isAt hat] at h
      rcases List.mem_cons.mp h with rfl | h
      · exact .inr ⟨first, List.mem_cons_self, hat, rfl⟩
      · exact .inl (List.mem_cons_of_mem first h)
    · rw [inside_cons_of_not_isAt hat] at h
      rcases List.mem_cons.mp h with rfl | h
      · exact .inl List.mem_cons_self
      · rcases ih h with h | ⟨other, hother, hfill⟩
        · exact .inl (List.mem_cons_of_mem first h)
        · exact .inr ⟨other, List.mem_cons_of_mem first hother, hfill⟩

/-! ### Distinct nodes -/

/-- **No label is there twice**, in a container and in all containers inside. -/
inductive AreDistinct : List Node → Prop
  | intro {nodes : List Node} (labels : (labels nodes).reduceOption.Nodup)
      (inside : ∀ node ∈ nodes, AreDistinct node.children) : AreDistinct nodes

namespace AreDistinct

theorem labels (h : AreDistinct nodes) : (Css.labels nodes).reduceOption.Nodup := by
  cases h with
  | intro labels _ => exact labels

theorem inside (h : AreDistinct nodes) : ∀ node ∈ nodes, AreDistinct node.children := by
  cases h with
  | intro _ inside => exact inside

theorem nil : AreDistinct [] := .intro (by simp [Css.labels]) (by simp)

/-- A node at the end, with a label that is new. -/
theorem push (h : AreDistinct nodes) (hnode : node.label? = some label)
    (hnew : some label ∉ Css.labels nodes) (hinside : AreDistinct node.children)
    (withBreak : Bool) : AreDistinct (Css.push withBreak node nodes) := by
  refine .intro ((takesLabel_push hnode hnew withBreak).nodup h.labels) fun other hother => ?_
  rcases mem_push hother with hother | rfl | rfl
  · exact h.inside other hother
  · exact .nil
  · exact hinside

theorem reach (h : AreDistinct nodes) (place : Place) (withBreak : Bool) :
    AreDistinct (Css.reach place withBreak nodes) := by
  unfold Css.reach
  split_ifs with hany
  · exact h
  · have hinside : place.fresh.children = [] := by cases place <;> rfl
    exact h.push (Place.isAt_iff_label?.mp (isAt_fresh place))
      (fun hmem => hany (any_isAt_iff_labels.mpr hmem)) (hinside ▸ .nil) withBreak

theorem ensureStatement (h : AreDistinct nodes) (name params : String) (withBreak : Bool) :
    AreDistinct (Css.ensureStatement name params withBreak nodes) := by
  unfold Css.ensureStatement
  split_ifs with hany
  · exact h
  · have hmissing : some (.atRule name params) ∉ Css.labels nodes :=
      fun hmem => hany (any_isAt_iff_labels.mpr hmem)
    have hlabel : Node.label? (.statement name params {}) = some (.atRule name params) := rfl
    exact h.push hlabel hmissing .nil withBreak

theorem declare (h : AreDistinct nodes) (property value : String) :
    AreDistinct (Css.declare property value nodes) := by
  refine .intro ((takesLabel_declare property value nodes).nodup h.labels) fun node hnode => ?_
  rcases mem_declare hnode with hnode | hnode
  · exact h.inside node hnode
  · exact hnode ▸ .nil

/-- An edit inside a place that keeps what is there distinct. -/
theorem enter (h : AreDistinct nodes) (place : Place) (withBreak : Bool)
    (hf : ∀ inner, AreDistinct inner → AreDistinct (f inner)) :
    AreDistinct (Css.enter place withBreak f nodes) := by
  refine .intro ((takesLabel_enter place withBreak f nodes).nodup h.labels) fun node hnode => ?_
  have hreached := h.reach place withBreak
  rcases mem_inside hnode with hnode | ⟨other, hother, hat, rfl⟩
  · exact hreached.inside node hnode
  · rw [Node.children_fill hat]
    exact hf _ (hreached.inside other hother)

/-- Nodes with one new label between them, in between. -/
theorem insertAt (h : AreDistinct nodes) (hnew : new ≠ [])
    (hlabel : (Css.labels new).reduceOption = [label]) (hmissing : some label ∉ Css.labels nodes)
    (hinside : ∀ node ∈ new, node.children = []) (index : Nat) :
    AreDistinct (Css.insertAt index new nodes) := by
  refine .intro (nodup_insertAt hnew hlabel hmissing index h.labels) fun node hnode => ?_
  rcases mem_insertAt hnode with hnode | hnode | ⟨next, hnext, rfl⟩
  · exact hinside node hnode ▸ .nil
  · exact h.inside node hnode
  · rw [Node.children_loosen]
    exact h.inside next hnext

theorem ensureImport (h : AreDistinct nodes) (params : String) :
    AreDistinct (Css.ensureImport params nodes) := by
  unfold Css.ensureImport
  split_ifs with hany
  · exact h
  · have hmissing : some (.atRule "import" params) ∉ Css.labels nodes :=
      fun hmem => hany (any_isAt_iff_labels.mpr hmem)
    exact h.insertAt (by simp) rfl hmissing (by simp [Node.children]) _

/-- A plugin that is missing under all its names is missing under the one that is written. -/
theorem ensurePlugin (h : AreDistinct nodes) (params : String) :
    AreDistinct (Css.ensurePlugin params nodes) := by
  rw [ensurePlugin_eq]
  split_ifs with hany
  · exact h
  · have hmissing : some (.atRule "plugin" (writtenPlugin params)) ∉ Css.labels nodes := by
      intro hmem
      exact hany (any_loadsPlugin_iff.mpr
        ⟨writtenPlugin params, quotedPlugin_writtenPlugin params, any_isAt_iff_labels.mpr hmem⟩)
    split <;> exact h.insertAt (by simp) rfl hmissing (by simp [Node.children, breakMarker]) _

end AreDistinct

/-! ### Plugins -/

/-- The plugin that a node states, in double quotes. -/
def Node.pluginStatement? : Node → Option String
  | .statement name params _ => if name = "plugin" then some (quotedPlugin params) else none
  | _ => none

/-- The plugins that are stated among some nodes, in double quotes and in their order. -/
def statedPlugins (nodes : List Node) : List String :=
  nodes.filterMap Node.pluginStatement?

theorem statedPlugins_push (hnode : node.pluginStatement? = none) (withBreak : Bool)
    (nodes : List Node) : statedPlugins (push withBreak node nodes) = statedPlugins nodes := by
  have hmarker : breakMarker.pluginStatement? = none := rfl
  unfold push statedPlugins
  split_ifs <;> simp [hmarker, hnode]

theorem statedPlugins_reach (place : Place) (withBreak : Bool) (nodes : List Node) :
    statedPlugins (reach place withBreak nodes) = statedPlugins nodes := by
  unfold reach
  split_ifs
  · rfl
  · exact statedPlugins_push (by cases place <;> rfl) withBreak nodes

theorem statedPlugins_eq_reduceOption (nodes : List Node) :
    statedPlugins nodes = (nodes.map Node.pluginStatement?).reduceOption := by
  rw [List.reduceOption, List.filterMap_map]
  rfl

theorem statedPlugins_declare (property value : String) (nodes : List Node) :
    statedPlugins (declare property value nodes) = statedPlugins nodes := by
  by_cases hdeclared : isDeclared property nodes
  · rw [statedPlugins_eq_reduceOption, map_declare (fun _ _ => rfl) hdeclared,
      ← statedPlugins_eq_reduceOption]
  · rw [declare_eq_append hdeclared]
    exact statedPlugins_push rfl false nodes

/-- An at-rule that gets a body is no statement afterwards, and no other one becomes a
statement. -/
theorem statedPlugins_inside (place : Place) (f : List Node → List Node) (nodes : List Node) :
    (statedPlugins (inside place f nodes)).Sublist (statedPlugins nodes) := by
  induction nodes with
  | nil => exact .slnil
  | cons node rest ih =>
    by_cases hat : place.isAt node
    · have hfill : (node.fill f).pluginStatement? = node.pluginStatement? ∨
          (node.fill f).pluginStatement? = none := by
        cases node <;> grind [Node.fill, Node.mapChildren, Node.pluginStatement?]
      rw [inside_cons_of_isAt hat]
      unfold statedPlugins
      rcases hfill with hfill | hfill
      · rw [List.filterMap_cons, List.filterMap_cons, hfill]
      · rw [List.filterMap_cons_none hfill, List.filterMap_cons]
        cases node.pluginStatement? with
        | none => exact .refl _
        | some plugin => exact List.sublist_cons_self plugin _
    · rw [inside_cons_of_not_isAt hat]
      unfold statedPlugins at ih ⊢
      rw [List.filterMap_cons, List.filterMap_cons]
      cases node.pluginStatement? with
      | none => exact ih
      | some plugin => exact ih.cons_cons plugin

theorem statedPlugins_insertAt (hnew : new ≠ []) (index : Nat) (nodes : List Node) :
    statedPlugins (insertAt index new nodes) = statedPlugins (nodes.take index) ++
      statedPlugins new ++ statedPlugins (nodes.drop index) := by
  have hloosen (node : Node) : node.loosen.pluginStatement? = node.pluginStatement? := by
    rw [Node.loosen_eq]
    cases node <;> rfl
  simp only [statedPlugins_eq_reduceOption, map_insertAt hloosen hnew, List.reduceOption_append]

/-- **A canonical style sheet** has no label twice, at any depth, and states no plugin twice,
however it is quoted. -/
structure IsCanonical (nodes : List Node) : Prop where
  distinct : AreDistinct nodes
  plugins : (statedPlugins nodes).Nodup

namespace IsCanonical

theorem reach (h : IsCanonical nodes) (place : Place) (withBreak : Bool) :
    IsCanonical (Css.reach place withBreak nodes) where
  distinct := h.distinct.reach place withBreak
  plugins := statedPlugins_reach place withBreak nodes ▸ h.plugins

theorem enter (h : IsCanonical nodes) (place : Place) (withBreak : Bool)
    (hf : ∀ inner, AreDistinct inner → AreDistinct (f inner)) :
    IsCanonical (Css.enter place withBreak f nodes) where
  distinct := h.distinct.enter place withBreak hf
  plugins := by
    have hsublist := statedPlugins_inside place f (Css.reach place withBreak nodes)
    rw [statedPlugins_reach] at hsublist
    exact hsublist.nodup h.plugins

theorem declare (h : IsCanonical nodes) (property value : String) :
    IsCanonical (Css.declare property value nodes) where
  distinct := h.distinct.declare property value
  plugins := statedPlugins_declare property value nodes ▸ h.plugins

/-- Plugins have a way of their own to be stated. -/
theorem ensureStatement (h : IsCanonical nodes) (hname : name ≠ "plugin") (params : String)
    (withBreak : Bool) : IsCanonical (Css.ensureStatement name params withBreak nodes) where
  distinct := h.distinct.ensureStatement name params withBreak
  plugins := by
    unfold Css.ensureStatement
    split_ifs
    · exact h.plugins
    · rw [statedPlugins_push (by simp [Node.pluginStatement?, hname])]
      exact h.plugins

theorem ensureImport (h : IsCanonical nodes) (params : String) :
    IsCanonical (Css.ensureImport params nodes) where
  distinct := h.distinct.ensureImport params
  plugins := by
    unfold Css.ensureImport
    split_ifs
    · exact h.plugins
    · rw [statedPlugins_insertAt (by simp)]
      have hnone : statedPlugins [.statement "import" params {}] = [] := rfl
      rw [hnone, List.append_nil, statedPlugins, statedPlugins, ← List.filterMap_append,
        List.take_append_drop]
      exact h.plugins

theorem ensurePlugin (h : IsCanonical nodes) (params : String) :
    IsCanonical (Css.ensurePlugin params nodes) where
  distinct := h.distinct.ensurePlugin params
  plugins := by
    rw [ensurePlugin_eq]
    split_ifs with hany
    · exact h.plugins
    · have hmissing : quotedPlugin params ∉ statedPlugins nodes := by
        intro hmem
        obtain ⟨node, hnode, hplugin⟩ := List.mem_filterMap.mp hmem
        have hloads : Node.loadsPlugin (quotedPlugin params) node := by
          cases node <;> grind [Node.pluginStatement?, Node.loadsPlugin, Node.atRule?]
        exact hany (List.any_eq_true.mpr ⟨node, hnode, hloads⟩)
      have hinsert {new : List Node} (hnew : new ≠ [])
          (hplugin : statedPlugins new = [quotedPlugin params]) (index : Nat) :
          (statedPlugins (Css.insertAt index new nodes)).Nodup := by
        rw [statedPlugins_insertAt hnew, hplugin, List.append_assoc, List.singleton_append,
          List.nodup_middle, statedPlugins, statedPlugins, ← List.filterMap_append,
          List.take_append_drop]
        exact List.nodup_cons.mpr ⟨hmissing, h.plugins⟩
      have hplugin : Node.pluginStatement? (.statement "plugin" (writtenPlugin params) {}) =
          some (quotedPlugin params) := by
        simp [Node.pluginStatement?]
      have hmarker : breakMarker.pluginStatement? = none := rfl
      split <;>
        exact hinsert (by simp) (by simp [statedPlugins, hplugin, hmarker]) _

end IsCanonical

end Restyle.Css
