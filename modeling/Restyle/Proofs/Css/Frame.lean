import Restyle.Proofs.Css.Revision

/-!
# What an edit leaves alone

An edit at one place leaves the other places alone, and a node at the end takes none of them.
What is at a place that is there, is edited there.

More generally, an edit **keeps** what is read off some nodes (`Restyle.Css.Keeps`) if the same is
read off them afterwards, and so does whatever is made of such edits.
-/

namespace Restyle.Css

variable {place other : Place} {node : Node} {nodes : List Node}

/-! ### What is read off nodes -/

section Keeps

variable {α : Type} {read : List Node → α} {f g : List Node → List Node}

/-- **An edit keeps** what is read off nodes if the same is read off them after it. -/
def Keeps (read : List Node → α) (f : List Node → List Node) : Prop :=
  ∀ nodes, read (f nodes) = read nodes

namespace Keeps

theorem comp (hf : Keeps read f) (hg : Keeps read g) : Keeps read fun nodes => f (g nodes) :=
  fun nodes => (hf (g nodes)).trans (hg nodes)

theorem foldl {ι : Type} {edit : List Node → ι → List Node} (hedit : ∀ x, Keeps read (edit · x))
    (edits : List ι) : Keeps read fun nodes => edits.foldl edit nodes := by
  intro nodes
  induction edits generalizing nodes with
  | nil => rfl
  | cons first rest ih => exact (ih (edit nodes first)).trans (hedit first nodes)

/-- An edit for some nodes only. -/
theorem otherwise {c : List Node → Prop} {_ : DecidablePred c} (hf : Keeps read f) :
    Keeps read fun nodes => if c nodes then nodes else f nodes := by
  intro nodes
  dsimp only
  split_ifs
  · rfl
  · exact hf nodes

end Keeps

end Keeps

/-! ### At the end -/

theorem find?_push (h : ¬place.isAt node) (withBreak : Bool) (nodes : List Node) :
    find? place (push withBreak node nodes) = find? place nodes := by
  have hmarker : ¬place.isAt breakMarker := Place.not_isAt_of_none rfl rfl
  unfold push find?
  split_ifs <;> simp [List.find?_append, h, hmarker]

/-- What was found is found, whatever is added. -/
theorem find?_push_of_eq_some {found : Node} (h : find? place nodes = some found)
    (withBreak : Bool) (node : Node) : find? place (push withBreak node nodes) = some found := by
  unfold find? at h
  unfold push find?
  split_ifs <;> simp [List.find?_append, h]

/-- What was not found is found at the end. -/
theorem find?_push_of_eq_none (h : find? place nodes = none) (hnode : place.isAt node)
    (withBreak : Bool) : find? place (push withBreak node nodes) = some node := by
  have hmarker : ¬place.isAt breakMarker := Place.not_isAt_of_none rfl rfl
  unfold find? at h
  unfold push find?
  split_ifs <;> simp [List.find?_append, h, hmarker, hnode]

/-! ### At another place -/

theorem isAt_fresh (place : Place) : place.isAt place.fresh := by
  cases place <;> simp [Place.isAt, Place.fresh, Node.selector?, Node.atRule?]

theorem find?_reach_of_ne (hne : place ≠ other) (withBreak : Bool) (nodes : List Node) :
    find? other (reach place withBreak nodes) = find? other nodes := by
  unfold reach
  split_ifs
  · rfl
  · exact find?_push (Place.not_isAt_of_ne (isAt_fresh place) hne) withBreak nodes

theorem find?_inside_of_ne (hne : place ≠ other) (f : List Node → List Node) (nodes : List Node) :
    find? other (inside place f nodes) = find? other nodes := by
  unfold find?
  induction nodes with
  | nil => rfl
  | cons node rest ih =>
    by_cases hat : place.isAt node
    · have hnot := Place.not_isAt_of_ne hat hne
      rw [inside_cons_of_isAt hat, List.find?_cons_of_neg (by rwa [Place.isAt_fill]),
        List.find?_cons_of_neg hnot]
    · rw [inside_cons_of_not_isAt hat, List.find?_cons, List.find?_cons, ih]

theorem find?_enter_of_ne (hne : place ≠ other) (withBreak : Bool) (f : List Node → List Node)
    (nodes : List Node) : find? other (enter place withBreak f nodes) = find? other nodes := by
  rw [enter, find?_inside_of_ne hne, find?_reach_of_ne hne]

/-- A place that is there is not made. -/
theorem enter_eq_inside (h : find? place nodes = some node) (withBreak : Bool)
    (f : List Node → List Node) : enter place withBreak f nodes = inside place f nodes := by
  have hany : nodes.any place.isAt :=
    List.any_eq_true.mpr ⟨node, List.mem_of_find?_eq_some h, isAt_of_find? h⟩
  rw [enter, reach, if_pos hany]

/-! ### Any node -/

/-- What is there after an insertion is new or was there, but for white space in front of it. -/
theorem mem_insertAt {index : Nat} {new : List Node} (h : node ∈ insertAt index new nodes) :
    node ∈ new ∨ node ∈ nodes ∨ ∃ next ∈ nodes, node = next.loosen := by
  unfold insertAt at h
  split_ifs at h
  · exact .inr (.inl h)
  rcases List.mem_append.mp h with h | h
  · rcases List.mem_append.mp h with h | h
    · exact .inr (.inl (List.mem_of_mem_take h))
    · exact .inl h
  · cases hdrop : nodes.drop index with
    | nil => simp [hdrop] at h
    | cons next rest =>
      have hmem {other : Node} (hother : other ∈ next :: rest) : other ∈ nodes :=
        List.mem_of_mem_drop (hdrop ▸ hother)
      simp only [hdrop] at h
      rcases List.mem_cons.mp h with rfl | h
      · exact .inr (.inr ⟨next, hmem List.mem_cons_self, rfl⟩)
      · exact .inr (.inl (hmem (List.mem_cons_of_mem _ h)))

/-- What is somewhere is there after an edit that keeps it in each node. -/
theorem any_enter {p : Node → Bool} {f : List Node → List Node}
    (hp : ∀ node : Node, p node → p (node.fill f)) (h : nodes.any p) (place : Place)
    (withBreak : Bool) : (enter place withBreak f nodes).any p := by
  have hreach : (reach place withBreak nodes).any p := by
    unfold reach push
    split_ifs <;> simp [h]
  rw [enter]
  generalize reach place withBreak nodes = reached at hreach
  induction reached with
  | nil => cases hreach
  | cons node rest ih =>
    rw [List.any_cons, Bool.or_eq_true] at hreach
    by_cases hat : place.isAt node
    · rw [inside_cons_of_isAt hat, List.any_cons, Bool.or_eq_true]
      exact hreach.imp_left (hp node)
    · rw [inside_cons_of_not_isAt hat, List.any_cons, Bool.or_eq_true]
      exact hreach.imp_right ih

end Restyle.Css
