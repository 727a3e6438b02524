import Restyle.Proofs.Css.Lookup

/-!
# Outlines

The outline of a tree is what is left of it when layouts are forgotten, and comments too
unless they are asked for. What is looked for in a tree is looked for in its outline: a path
leads to the outline of the same container, and a property has the same value there. So two
trees of one outline agree on everything that an edit asks for.
-/

namespace Restyle.Css

mutual

/-- A node without its layout, and a comment only with `comments`. -/
def Node.outline (comments : Bool) : Node → List Node
  | .comment text _ => if comments then [.comment text {}] else []
  | .declaration property value _ => [.declaration property value {}]
  | .statement name params _ => [.statement name params {}]
  | .block name params nodes _ => [.block name params (outline comments nodes) {}]
  | .rule selector nodes _ => [.rule selector (outline comments nodes) {}]

/-- **The outline of nodes**: the nodes without their layouts, with or without comments. -/
def outline (comments : Bool) : List Node → List Node
  | [] => []
  | node :: rest => node.outline comments ++ outline comments rest

end

variable {comments : Bool}

theorem outline_append (xs ys : List Node) :
    outline comments (xs ++ ys) = outline comments xs ++ outline comments ys := by
  induction xs with
  | nil => rfl
  | cons x xs ih => simp [outline, ih]

theorem outline_singleton (node : Node) : outline comments [node] = node.outline comments := by
  simp [outline]

/-! ### What is looked for -/

/-- A test that forgets layouts and comments has the same outcome on the outline. -/
theorem any_outline {p : Node → Bool} (hp : ∀ node : Node, (node.outline comments).any p = p node)
    (nodes : List Node) : (outline comments nodes).any p = nodes.any p := by
  induction nodes with
  | nil => rfl
  | cons node rest ih => rw [outline, List.any_append, hp, ih, List.any_cons]

/-- What is at a place is so in the outline. -/
theorem any_isAt_outline (comments : Bool) (place : Place) (nodes : List Node) :
    (outline comments nodes).any place.isAt = nodes.any place.isAt := by
  refine any_outline (fun node => ?_) nodes
  cases node <;> cases place <;> cases comments <;>
    simp [Node.outline, Place.isAt, Node.selector?, Node.atRule?]

/-- The first node at a place holds the outline of what it holds. -/
theorem children_find?_outline (place : Place) (nodes : List Node) :
    (find? place (outline comments nodes)).map Node.children =
      (find? place nodes).map fun node => outline comments node.children := by
  induction nodes with
  | nil => rfl
  | cons node rest ih =>
    rw [outline]
    unfold find? at ih ⊢
    rw [List.find?_append, List.find?_cons]
    by_cases hat : place.isAt node
    · rw [hat]
      cases node <;> cases place <;>
        simp_all [Node.outline, Place.isAt, Node.selector?, Node.atRule?, Node.children, outline]
    · have hnone : (node.outline comments).find? place.isAt = none := by
        cases node <;> cases place <;> cases comments <;>
          simp_all [Node.outline, Place.isAt, Node.selector?, Node.atRule?]
      rw [hnone, Option.none_or, ih, (Bool.not_eq_true _).mp hat]

/-- **A path leads to the outline comments of the container that it leads to.** -/
theorem containerAt?_outline (comments : Bool) (path : List Place) (nodes : List Node) :
    containerAt? path (outline comments nodes) =
      (containerAt? path nodes).map (outline comments) := by
  induction path generalizing nodes with
  | nil => rfl
  | cons place path ih =>
    have hchildren : (find? place (outline comments nodes)).map Node.children = _ :=
      children_find?_outline place nodes
    unfold containerAt?
    cases hfound : find? place nodes with
    | none =>
      rw [hfound, Option.map_none, Option.map_eq_none_iff] at hchildren
      rw [hchildren]
      rfl
    | some node =>
      rw [hfound, Option.map_some, Option.map_eq_some_iff] at hchildren
      obtain ⟨outlined, houtlined, hinside⟩ := hchildren
      rw [houtlined, Option.bind_some, Option.bind_some, hinside, ih]

theorem valueOf?_outline (comments : Bool) (property : String) (nodes : List Node) :
    valueOf? property (outline comments nodes) = valueOf? property nodes := by
  induction nodes with
  | nil => rfl
  | cons node rest ih =>
    rw [outline]
    cases node with
    | declaration other value layout =>
      rw [Node.outline, List.singleton_append, valueOf?_declaration, valueOf?_declaration, ih]
    | _ => cases comments <;> simpa [Node.outline, valueOf?, Node.declaration?] using ih

/-- **A property has the value that it has in the outline.** -/
theorem valueAt?_outline (comments : Bool) (path : List Place) (property : String)
    (nodes : List Node) :
    valueAt? path property (outline comments nodes) = valueAt? path property nodes := by
  unfold valueAt?
  rw [containerAt?_outline]
  cases containerAt? path nodes with
  | none => rfl
  | some inner => exact valueOf?_outline comments property inner

end Restyle.Css
