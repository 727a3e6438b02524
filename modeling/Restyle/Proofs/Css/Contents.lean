import Restyle.Proofs.Css.Persistence
import Restyle.Proofs.Merge.Replay

/-!
# What is in a place

An edit at a place is an edit of what is in the first node there, which is nothing where there
is no such node (`Restyle.Css.contentsOf`). This is exact: `Restyle.Css.contentsOf_enter` has no
condition, whether the place is missing, is an at-rule without a body or is there several times.

Nodes may also be strewn among the others of a container (`Restyle.Css.Strewn`), as imports,
plugins and variants are. Where the new nodes are at another place, this changes nothing of what
is in a place.
-/

namespace Restyle.Css

variable {place other : Place} {property : String} {f : List Node → List Node}
  {nodes old new : List Node} {node : Node}

/-- What is in the first node at a place; nothing where there is none. -/
def contentsOf (place : Place) (nodes : List Node) : List Node :=
  ((find? place nodes).map Node.children).getD []

/-! ### Paths -/

/-- A property that is looked for in nothing has no value. -/
theorem valueAt?_nil (path : List Place) (property : String) :
    valueAt? path property [] = none := by
  cases path <;> rfl

/-- **A path is followed into what is in its first place.** -/
theorem valueAt?_cons (place : Place) (path : List Place) (property : String)
    (nodes : List Node) :
    valueAt? (place :: path) property nodes = valueAt? path property (contentsOf place nodes) := by
  unfold valueAt? contentsOf
  rw [containerAt?]
  cases find? place nodes with
  | none => exact (valueAt?_nil path property).symm
  | some node => rfl

theorem valueAt?_singleton (place : Place) (property : String) (nodes : List Node) :
    valueAt? [place] property nodes = valueOf? property (contentsOf place nodes) :=
  valueAt?_cons place [] property nodes

/-- Only the first node at a place matters. -/
theorem contentsOf_congr (h : find? place new = find? place old) :
    contentsOf place new = contentsOf place old := by
  rw [contentsOf, h, contentsOf]

/-! ### Edits at a place -/

theorem contentsOf_reach (place : Place) (withBreak : Bool) (nodes : List Node) :
    contentsOf place (reach place withBreak nodes) = contentsOf place nodes := by
  unfold reach
  split_ifs with hany
  · rfl
  · have hnone : find? place nodes = none := by
      simpa [find?] using hany
    have hpush := find?_push_of_eq_none hnone (isAt_fresh place) withBreak
    rw [contentsOf, hpush, contentsOf, hnone]
    cases place <;> rfl

/-- **An edit at a place edits what is in it.** -/
theorem contentsOf_enter (place : Place) (withBreak : Bool) (f : List Node → List Node)
    (nodes : List Node) :
    contentsOf place (enter place withBreak f nodes) = f (contentsOf place nodes) := by
  rw [← contentsOf_reach place withBreak nodes]
  obtain ⟨node, hnode⟩ := Merge.exists_find?_reach place withBreak nodes
  rw [enter, contentsOf, find?_inside, contentsOf, hnode]
  exact Node.children_fill (isAt_of_find? hnode)

theorem contentsOf_enter_of_ne (hne : place ≠ other) (withBreak : Bool)
    (f : List Node → List Node) (nodes : List Node) :
    contentsOf other (enter place withBreak f nodes) = contentsOf other nodes :=
  contentsOf_congr (find?_enter_of_ne hne withBreak f nodes)

/-! ### What persists -/

/-- Where nothing is written, a property keeps its value. -/
theorem NodesPersist.valueAt? {path : List Place} {value : String}
    (h : NodesPersist noWrites [] old new) (hvalue : Css.valueAt? path property old = some value) :
    Css.valueAt? path property new = some value := by
  obtain ⟨inner, hinner, hvalue⟩ := Option.bind_eq_some_iff.mp hvalue
  obtain ⟨inner', hinner', hpersist⟩ := h.containerAt? hinner
  obtain ⟨value', hvalue', rfl | hwrites⟩ := hpersist.valueOf? hvalue
  · rw [Css.valueAt?, hinner', Option.bind_some, hvalue']
  · exact hwrites.elim

/-- A node that was there is there, and persists. -/
theorem NodesPersist.exists_persists {writes : Writes} {seen : List Node}
    (h : NodesPersist writes seen old new) (hmem : node ∈ old) :
    ∃ kept ∈ new, ∃ seen, node.Persists writes seen kept := by
  induction h using NodesPersist.induction with
  | added => cases hmem
  | insert _ _ ih =>
    obtain ⟨kept, hkept, hnode⟩ := ih hmem
    exact ⟨kept, List.mem_cons_of_mem _ hkept, hnode⟩
  | keep hfirst _ ih =>
    rcases List.mem_cons.mp hmem with rfl | hmem
    · exact ⟨_, List.mem_cons_self, _, hfirst⟩
    · obtain ⟨kept, hkept, hnode⟩ := ih hmem
      exact ⟨kept, List.mem_cons_of_mem _ hkept, hnode⟩

/-! ### Strewn nodes -/

/-- **Nodes of a kind are strewn among others**, which are kept in their order, but that white
space in front of them that is empty may be forgotten. -/
inductive Strewn (kind : Node → Prop) : List Node → List Node → Prop
  | nil : Strewn kind [] []
  | insert {node : Node} {old new : List Node} : kind node → Strewn kind old new →
      Strewn kind old (node :: new)
  | keep {node : Node} {old new : List Node} : Strewn kind old new →
      Strewn kind (node :: old) (node :: new)
  | loosen {node : Node} {old new : List Node} : Strewn kind old new →
      Strewn kind (node :: old) (node.loosen :: new)

variable {kind : Node → Prop}

theorem Strewn.refl (kind : Node → Prop) (nodes : List Node) : Strewn kind nodes nodes := by
  induction nodes with
  | nil => exact .nil
  | cons node rest ih => exact .keep ih

theorem Strewn.append_left (front : List Node) (h : Strewn kind old new) :
    Strewn kind (front ++ old) (front ++ new) := by
  induction front with
  | nil => exact h
  | cons node front ih => exact .keep ih

theorem Strewn.inserts {inserted : List Node} (hkind : ∀ node ∈ inserted, kind node)
    (h : Strewn kind old new) : Strewn kind old (inserted ++ new) := by
  induction inserted with
  | nil => exact h
  | cons node inserted ih =>
    obtain ⟨hnode, hrest⟩ := List.forall_mem_cons.mp hkind
    exact .insert hnode (ih hrest)

theorem strewn_insertAt {inserted : List Node} (hkind : ∀ node ∈ inserted, kind node)
    (index : Nat) (nodes : List Node) : Strewn kind nodes (insertAt index inserted nodes) := by
  unfold insertAt
  split_ifs with hempty
  · exact .refl kind nodes
  · have hall {rest : List Node} (hrest : Strewn kind (nodes.drop index) rest) :
        Strewn kind nodes (nodes.take index ++ inserted ++ rest) := by
      have hstrewn := (hrest.inserts hkind).append_left (nodes.take index)
      rwa [List.take_append_drop, ← List.append_assoc] at hstrewn
    refine hall ?_
    cases nodes.drop index with
    | nil => exact .nil
    | cons next rest => exact .loosen (.refl kind rest)

/-- **Where nodes are strewn that are at other places, what is found at a place holds the same.** -/
theorem Strewn.children_find? (h : Strewn kind old new)
    (hkind : ∀ node, kind node → ¬place.isAt node) :
    (find? place new).map Node.children = (find? place old).map Node.children := by
  unfold find?
  induction h with
  | nil => rfl
  | insert hnode _ ih => rw [List.find?_cons_of_neg (hkind _ hnode), ih]
  | @keep node _ _ _ ih =>
    by_cases hat : place.isAt node
    · rw [List.find?_cons_of_pos hat, List.find?_cons_of_pos hat]
    · rw [List.find?_cons_of_neg hat, List.find?_cons_of_neg hat, ih]
  | @loosen node _ _ _ ih =>
    have hsame := node.alike_loosen.isAt place
    by_cases hat : place.isAt node
    · rw [List.find?_cons_of_pos (hsame.trans hat), List.find?_cons_of_pos hat]
      simp
    · rw [List.find?_cons_of_neg (hsame ▸ hat), List.find?_cons_of_neg hat, ih]

theorem Strewn.contentsOf (h : Strewn kind old new) (hkind : ∀ node, kind node → ¬place.isAt node) :
    Css.contentsOf place new = Css.contentsOf place old := by
  rw [Css.contentsOf, h.children_find? hkind, Css.contentsOf]

end Restyle.Css
