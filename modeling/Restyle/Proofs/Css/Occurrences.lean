import Restyle.Proofs.Css.Distinct

/-!
# Where rules occur

A rule may occur many times and at any depth: at top level, in a layer, in another rule. The
**occurrences** of the rules of some selectors (`Restyle.Css.occurrences`) are listed in the order
of the text. Each is told by the places that lead to it, from the style sheet inwards, and by the
nodes in it, layouts and all.

An edit **spares** these rules (`Restyle.Css.Spares`) if they occur after it where they occurred
before, with the same in them. Declarations, statements and comments have no rules in them, so that
adding or replacing them around a rule spares it, and an edit at another place spares it if it does
so inside.
-/

namespace Restyle.Css

variable {p : String → Bool} {place : Place} {node : Node} {nodes new : List Node}
  {f g : List Node → List Node} {property value : String}

/-! ### Occurrences -/

/-- An occurrence of a rule. -/
structure Occurrence where
  /-- The places that lead to the rule, itself included. -/
  path : List Place
  /-- What is in it. -/
  nodes : List Node

/-- An occurrence inside a node at a place. -/
def Occurrence.under (place : Place) (occurrence : Occurrence) : Occurrence :=
  { occurrence with path := place :: occurrence.path }

mutual

/-- The rules of some selectors in a node, itself included. -/
def Node.occurrences (p : String → Bool) : Node → List Occurrence
  | .rule selector nodes _ =>
    (if p selector then [⟨[.rule selector], nodes⟩] else []) ++
      (occurrences p nodes).map (.under (.rule selector))
  | .block name params nodes _ => (occurrences p nodes).map (.under (.atRule name params))
  | .statement .. => []
  | .declaration .. => []
  | .comment .. => []

/-- **The occurrences of rules**, those whose selectors have a property, at any depth and in the
order of the text. -/
def occurrences (p : String → Bool) : List Node → List Occurrence
  | [] => []
  | node :: rest => node.occurrences p ++ occurrences p rest

end

theorem occurrences_append (xs ys : List Node) :
    occurrences p (xs ++ ys) = occurrences p xs ++ occurrences p ys := by
  induction xs with
  | nil => rfl
  | cons x xs ih => rw [List.cons_append, occurrences, ih, occurrences, List.append_assoc]

theorem Node.occurrences_withLayout (layout : Layout) (node : Node) :
    (node.withLayout layout).occurrences p = node.occurrences p := by
  cases node <;> rfl

theorem Node.occurrences_loosen (node : Node) : node.loosen.occurrences p = node.occurrences p := by
  rw [Node.loosen_eq, Node.occurrences_withLayout]

/-- There are no rules in a declaration. -/
theorem Node.occurrences_of_declares (h : node.declares property) : node.occurrences p = [] := by
  cases node <;> simp_all [Node.declares, Node.declaration?, Node.occurrences]

/-- What is inside a node at another place is all that occurs in it. -/
theorem Node.occurrences_of_isAt (hplace : ∀ selector, place = .rule selector → ¬p selector)
    (h : place.isAt node) :
    node.occurrences p = (Css.occurrences p node.children).map (.under place) := by
  cases place with
  | rule selector =>
    cases node <;> simp_all [Place.isAt, Node.selector?, Node.occurrences, Node.children]
  | atRule name params =>
    cases node <;>
      simp_all [Place.isAt, Node.atRule?, Node.occurrences, Node.children, Css.occurrences]

/-! ### Edits that spare rules -/

/-- **An edit spares rules** if they occur as they did before. -/
abbrev Spares (p : String → Bool) (f : List Node → List Node) : Prop :=
  Keeps (occurrences p) f

/-- What sets a new node off has no rules in it. -/
theorem occurrences_push (withBreak : Bool) (node : Node) (nodes : List Node) :
    occurrences p (push withBreak node nodes) = occurrences p nodes ++ node.occurrences p := by
  have hmarker : breakMarker.occurrences p = [] := rfl
  unfold push
  split_ifs <;> simp [occurrences_append, occurrences, hmarker]

theorem spares_push (hnode : node.occurrences p = []) (withBreak : Bool) :
    Spares p (push withBreak node) := by
  intro nodes
  rw [occurrences_push, hnode, List.append_nil]

/-- What is pushed down by an insertion has the same rules in it. -/
theorem spares_insertAt (hnew : occurrences p new = []) (index : Nat) :
    Spares p (insertAt index new) := by
  intro nodes
  rcases eq_or_ne new [] with rfl | hne
  · rfl
  have hfirst (rest : List Node) : occurrences p (loosenFirst rest) = occurrences p rest := by
    cases rest with
    | nil => rfl
    | cons next rest =>
      rw [loosenFirst, occurrences, Node.occurrences_loosen, occurrences]
  rw [insertAt_eq hne, occurrences_append, occurrences_append, hnew, List.append_nil, hfirst,
    ← occurrences_append, List.take_append_drop]

theorem spares_declare (property value : String) : Spares p (declare property value) := by
  intro nodes
  induction nodes with
  | nil => rfl
  | cons node rest ih =>
    by_cases hnode : node.declares property
    · rw [declare_cons_of_declares hnode, occurrences, occurrences,
        Node.occurrences_of_declares hnode]
      rfl
    · rw [declare_cons_of_not_declares hnode, occurrences, ih, occurrences]

theorem spares_assign (overwrite : Bool) (property value : String) :
    Spares p (assign overwrite property value) := by
  intro nodes
  unfold assign
  split_ifs
  · exact spares_declare property value nodes
  · rfl

theorem spares_insertProperty (property value : String) :
    Spares p (insertProperty property value) := by
  intro nodes
  unfold insertProperty
  split_ifs
  · rfl
  · have hnew : (Node.declaration property value {}).occurrences p = [] := rfl
    dsimp only
    rw [occurrences_append, occurrences, hnew, List.nil_append, ← occurrences_append,
      List.take_append_drop]

theorem spares_ensurePlugin (params : String) : Spares p (ensurePlugin params) := by
  intro nodes
  rw [ensurePlugin_eq]
  split_ifs
  · rfl
  · split <;> exact spares_insertAt rfl _ nodes

/-! ### Edits at a place -/

theorem spares_reach (hplace : ∀ selector, place = .rule selector → ¬p selector)
    (withBreak : Bool) :
    Spares p (reach place withBreak) := by
  have hfresh : place.fresh.occurrences p = [] := by
    rw [Node.occurrences_of_isAt hplace (isAt_fresh place)]
    cases place <;> rfl
  exact (spares_push hfresh withBreak).otherwise

/-- **What an edit adds at the end of a place** is added where the place is, and nowhere else. -/
theorem exists_occurrences_enter (hplace : ∀ selector, place = .rule selector → ¬p selector)
    {kind : Occurrence → Prop}
    (hf : ∀ nodes, ∃ added, occurrences p (f nodes) = occurrences p nodes ++ added ∧
      ∀ occurrence ∈ added, kind occurrence)
    (withBreak : Bool) (nodes : List Node) :
    ∃ (front added back : List Occurrence), occurrences p nodes = front ++ back ∧
      occurrences p (enter place withBreak f nodes) = front ++ added.map (.under place) ++ back ∧
      ∀ occurrence ∈ added, kind occurrence := by
  rw [enter, ← spares_reach hplace withBreak nodes]
  -- making the place adds no occurrence, so it may be taken to be there already
  generalize reach place withBreak nodes = nodes
  induction nodes with
  | nil => exact ⟨[], [], [], rfl, rfl, by simp⟩
  | cons node rest ih =>
    by_cases hat : place.isAt node
    · obtain ⟨added, hadded, hkind⟩ := hf node.children
      have hnode : (node.fill f).occurrences p =
          node.occurrences p ++ added.map (.under place) := by
        rw [Node.occurrences_of_isAt hplace (by rwa [Place.isAt_fill]), Node.children_fill hat,
          hadded, List.map_append, Node.occurrences_of_isAt hplace hat]
      refine ⟨node.occurrences p, added, occurrences p rest, rfl, ?_, hkind⟩
      rw [inside_cons_of_isAt hat, occurrences, hnode]
    · obtain ⟨front, added, back, hold, hnew, hkind⟩ := ih
      refine ⟨node.occurrences p ++ front, added, back, ?_, ?_, hkind⟩
      · rw [occurrences, hold, List.append_assoc]
      · rw [inside_cons_of_not_isAt hat, occurrences, hnew]
        simp only [List.append_assoc]

/-- **An edit at another place spares rules** if it does so inside. -/
theorem spares_enter (hplace : ∀ selector, place = .rule selector → ¬p selector) (hf : Spares p f)
    (withBreak : Bool) : Spares p (enter place withBreak f) := by
  intro nodes
  have hnothing (nodes : List Node) : ∃ added : List Occurrence,
      occurrences p (f nodes) = occurrences p nodes ++ added ∧ ∀ occurrence ∈ added, False :=
    ⟨[], by rw [hf, List.append_nil], by simp⟩
  obtain ⟨front, added, back, hold, hnew, hnone⟩ :=
    exists_occurrences_enter hplace hnothing withBreak nodes
  rw [hnew, hold, List.eq_nil_iff_forall_not_mem.mpr hnone, List.map_nil, List.append_nil]

end Restyle.Css
