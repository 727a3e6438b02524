import Restyle.Proofs.Css.Lookup

/-!
# Revising a value

Where a path leads somewhere and a property is declared there, writing the property adds
nothing: it revises a value, and `Restyle.Css.revise` says it without the making of places.
Two revisions of the same value are the last one of them, and revisions of different values
do not depend on their order.
-/

namespace Restyle.Css

/-- Other nodes inside the container that a path of places leads to. -/
def revise (f : List Node → List Node) : List Place → List Node → List Node
  | [], nodes => f nodes
  | place :: path, nodes => inside place (revise f path) nodes

/-- An edit that leaves something where there was something. -/
def KeepsSome (f : List Node → List Node) : Prop :=
  ∀ nodes, nodes ≠ [] → f nodes ≠ []

/-! ### Inside one place -/

section Inside

variable {place : Place} {f g : List Node → List Node}

/-- A node is at one place at most. -/
theorem Place.not_isAt_of_ne {other : Place} {node : Node} (h : place.isAt node)
    (hne : place ≠ other) : ¬other.isAt node := by
  cases place <;> cases other <;> cases node <;>
    simp_all [Place.isAt, Node.selector?, Node.atRule?]

@[simp] theorem Place.isAt_fill (other : Place) (f : List Node → List Node) (node : Node) :
    other.isAt (node.fill f) = other.isAt node :=
  (node.alike_fill f).isAt other

/-- What is inside a node afterwards. -/
theorem Node.children_fill {node : Node} (h : place.isAt node) :
    (node.fill f).children = f node.children := by
  cases node with
  | statement name params layout =>
    unfold Node.fill
    split_ifs with hempty
    · exact (List.isEmpty_iff.mp hempty).symm
    · rfl
  | rule selector nodes layout => rfl
  | block name params nodes layout => rfl
  | declaration property value layout => exact absurd h (Place.not_isAt_of_none rfl rfl)
  | comment text layout => exact absurd h (Place.not_isAt_of_none rfl rfl)

/-- Only what is inside a node matters for what is inside it afterwards. -/
theorem Node.fill_congr {node : Node} (h : f node.children = g node.children) :
    node.fill f = node.fill g := by
  cases node <;> simp_all [Node.fill, Node.mapChildren, Node.children]

theorem Node.fill_eq_self {node : Node} (h : f node.children = node.children) :
    node.fill f = node := by
  cases node <;> simp_all [Node.fill, Node.mapChildren, Node.children]

theorem Node.fill_fill (hf : KeepsSome f) (node : Node) :
    (node.fill g).fill f = node.fill (f ∘ g) := by
  cases node with
  | statement name params layout =>
    by_cases hg : g [] = []
    · simp [Node.fill, Node.mapChildren, hg]
    · simp [Node.fill, Node.mapChildren, hg, hf _ hg]
  | _ => rfl

theorem inside_cons_of_isAt {node : Node} (h : place.isAt node) (rest : List Node) :
    inside place f (node :: rest) = node.fill f :: rest := by
  rw [inside, if_pos h]

theorem inside_cons_of_not_isAt {node : Node} (h : ¬place.isAt node) (rest : List Node) :
    inside place f (node :: rest) = node :: inside place f rest := by
  rw [inside, if_neg h]

theorem find?_inside (nodes : List Node) :
    find? place (inside place f nodes) = (find? place nodes).map (Node.fill f) := by
  induction nodes with
  | nil => rfl
  | cons node rest ih =>
    by_cases h : place.isAt node
    · simp [inside_cons_of_isAt h, find?, h]
    · rw [inside_cons_of_not_isAt h]
      simpa [find?, h] using ih

/-- Only what is inside the first node at a place matters. -/
theorem inside_congr {nodes : List Node}
    (h : ∀ node, find? place nodes = some node → f node.children = g node.children) :
    inside place f nodes = inside place g nodes := by
  induction nodes with
  | nil => rfl
  | cons node rest ih =>
    by_cases hat : place.isAt node
    · rw [inside_cons_of_isAt hat, inside_cons_of_isAt hat,
        Node.fill_congr (h node (by simp [find?, hat]))]
    · rw [inside_cons_of_not_isAt hat, inside_cons_of_not_isAt hat, ih]
      intro other hother
      exact h other (by simpa [find?, hat] using hother)

theorem inside_eq_self {nodes : List Node}
    (h : ∀ node, find? place nodes = some node → f node.children = node.children) :
    inside place f nodes = nodes := by
  induction nodes with
  | nil => rfl
  | cons node rest ih =>
    by_cases hat : place.isAt node
    · rw [inside_cons_of_isAt hat, Node.fill_eq_self (h node (by simp [find?, hat]))]
    · rw [inside_cons_of_not_isAt hat, ih]
      intro other hother
      exact h other (by simpa [find?, hat] using hother)

theorem inside_inside (hf : KeepsSome f) (nodes : List Node) :
    inside place f (inside place g nodes) = inside place (f ∘ g) nodes := by
  induction nodes with
  | nil => rfl
  | cons node rest ih =>
    by_cases hat : place.isAt node
    · rw [inside_cons_of_isAt hat, inside_cons_of_isAt (by rwa [Place.isAt_fill]),
        inside_cons_of_isAt hat, Node.fill_fill hf]
    · rw [inside_cons_of_not_isAt hat, inside_cons_of_not_isAt hat,
        inside_cons_of_not_isAt hat, ih]

/-- Edits at two places do not depend on their order. -/
theorem inside_comm {other : Place} (hne : place ≠ other) (nodes : List Node) :
    inside place f (inside other g nodes) = inside other g (inside place f nodes) := by
  induction nodes with
  | nil => rfl
  | cons node rest ih =>
    by_cases hat : place.isAt node
    · have hother := Place.not_isAt_of_ne hat hne
      rw [inside_cons_of_not_isAt hother, inside_cons_of_isAt hat, inside_cons_of_isAt hat,
        inside_cons_of_not_isAt (by rwa [Place.isAt_fill])]
    · by_cases hother : other.isAt node
      · rw [inside_cons_of_isAt hother, inside_cons_of_not_isAt hat,
          inside_cons_of_not_isAt (by rwa [Place.isAt_fill]), inside_cons_of_isAt hother]
      · rw [inside_cons_of_not_isAt hother, inside_cons_of_not_isAt hat,
          inside_cons_of_not_isAt hat, inside_cons_of_not_isAt hother, ih]

end Inside

/-! ### One declaration -/

section Declare

variable {property other value value' : String}

theorem declare_cons_of_declares {node : Node} (h : node.declares property) (rest : List Node) :
    declare property value (node :: rest) =
      .declaration property value node.layout :: rest := by
  cases node with
  | declaration other old layout =>
    obtain rfl : other = property := by simpa [Node.declares, Node.declaration?] using h
    simp [declare, Node.layout]
  | _ => simp [Node.declares, Node.declaration?] at h

theorem declare_cons_of_not_declares {node : Node} (h : ¬node.declares property)
    (rest : List Node) :
    declare property value (node :: rest) = node :: declare property value rest := by
  cases node with
  | declaration other old layout =>
    rw [declare, if_neg (by simpa [Node.declares, Node.declaration?] using h)]
  | _ => rfl

theorem declares_declaration (other value : String) (layout : Layout) :
    (Node.declaration other value layout).declares property = (other == property) := rfl

theorem keepsSome_declare (property value : String) : KeepsSome (declare property value) := by
  intro nodes _
  cases nodes with
  | nil => simp [declare]
  | cons node rest =>
    by_cases h : node.declares property
    · simp [declare_cons_of_declares h]
    · simp [declare_cons_of_not_declares h]

/-- A property that takes a value has it. -/
theorem valueOf?_declare (property value : String) (nodes : List Node) :
    valueOf? property (declare property value nodes) = some value := by
  induction nodes with
  | nil => simp [declare, valueOf?_declaration]
  | cons node rest ih =>
    by_cases h : node.declares property
    · simp [declare_cons_of_declares h, valueOf?_declaration]
    · rw [declare_cons_of_not_declares h, valueOf?_cons_of_not_declares h, ih]

/-- Nothing changes where a property takes the value that it has. -/
theorem declare_eq_self {nodes : List Node} (h : valueOf? property nodes = some value) :
    declare property value nodes = nodes := by
  induction nodes with
  | nil => simp [valueOf?] at h
  | cons node rest ih =>
    by_cases hd : node.declares property
    · cases node with
      | declaration other old layout =>
        obtain rfl : other = property := by simpa [declares_declaration] using hd
        obtain rfl : old = value := by simpa [valueOf?_declaration] using h
        simp [declare]
      | _ => simp [Node.declares, Node.declaration?] at hd
    · rw [valueOf?_cons_of_not_declares hd] at h
      rw [declare_cons_of_not_declares hd, ih h]

theorem declare_declare (nodes : List Node) :
    declare property value (declare property value' nodes) = declare property value nodes := by
  induction nodes with
  | nil => simp [declare]
  | cons node rest ih =>
    by_cases h : node.declares property
    · rw [declare_cons_of_declares h, declare_cons_of_declares h,
        declare_cons_of_declares (by simp [declares_declaration])]
      rfl
    · rw [declare_cons_of_not_declares h, declare_cons_of_not_declares h,
        declare_cons_of_not_declares h, ih]

/-- Two properties that are declared take their values in any order. -/
theorem declare_comm (hne : property ≠ other) {nodes : List Node}
    (h : isDeclared property nodes) (hother : isDeclared other nodes) :
    declare property value (declare other value' nodes) =
      declare other value' (declare property value nodes) := by
  induction nodes with
  | nil => simp [isDeclared] at h
  | cons node rest ih =>
    by_cases hd : node.declares property
    · have hd' : ¬node.declares other := by
        cases node <;> simp_all [Node.declares, Node.declaration?]
      rw [declare_cons_of_not_declares hd', declare_cons_of_declares hd,
        declare_cons_of_declares hd, declare_cons_of_not_declares (by simpa [declares_declaration])]
    · by_cases hd' : node.declares other
      · rw [declare_cons_of_declares hd', declare_cons_of_not_declares hd,
          declare_cons_of_not_declares (by simpa [declares_declaration] using Ne.symm hne),
          declare_cons_of_declares hd']
      · rw [declare_cons_of_not_declares hd', declare_cons_of_not_declares hd,
          declare_cons_of_not_declares hd, declare_cons_of_not_declares hd',
          ih (by simpa [isDeclared, hd] using h) (by simpa [isDeclared, hd'] using hother)]

/-- A declaration is beside the nodes that hold others. -/
theorem declare_inside_comm (place : Place) (f : List Node → List Node) (nodes : List Node) :
    declare property value (inside place f nodes) =
      inside place f (declare property value nodes) := by
  have hnot {node : Node} (h : place.isAt node) (property : String) : ¬node.declares property := by
    cases place <;> cases node <;>
      simp_all [Place.isAt, Node.selector?, Node.atRule?, Node.declares, Node.declaration?]
  have hfill {node : Node} (h : place.isAt node) : place.isAt (node.fill f) := by
    rwa [Place.isAt_fill]
  have hdecl (layout : Layout) : ¬place.isAt (.declaration property value layout) :=
    Place.not_isAt_of_none rfl rfl
  induction nodes with
  | nil => rw [inside, declare, inside_cons_of_not_isAt (hdecl {}), inside]
  | cons node rest ih =>
    by_cases h : place.isAt node
    · rw [inside_cons_of_isAt h, declare_cons_of_not_declares (hnot (hfill h) property),
        declare_cons_of_not_declares (hnot h property), inside_cons_of_isAt h]
    · rw [inside_cons_of_not_isAt h]
      by_cases hd : node.declares property
      · rw [declare_cons_of_declares hd, declare_cons_of_declares hd,
          inside_cons_of_not_isAt (hdecl _)]
      · rw [declare_cons_of_not_declares hd, declare_cons_of_not_declares hd,
          inside_cons_of_not_isAt h, ih]

end Declare

/-! ### Along a path -/

section Path

variable {path path' : List Place} {property property' value value' : String}
  {nodes : List Node}

theorem keepsSome_inside (place : Place) (f : List Node → List Node) :
    KeepsSome (inside place f) := by
  intro nodes hne
  cases nodes with
  | nil => exact absurd rfl hne
  | cons node rest =>
    by_cases h : place.isAt node
    · simp [inside_cons_of_isAt h]
    · simp [inside_cons_of_not_isAt h]

theorem keepsSome_revise (property value : String) (path : List Place) :
    KeepsSome (revise (declare property value) path) := by
  cases path with
  | nil => exact keepsSome_declare property value
  | cons place path => exact keepsSome_inside place _

theorem containerAt?_revise (f : List Node → List Node) (path : List Place) (nodes : List Node) :
    containerAt? path (revise f path nodes) = (containerAt? path nodes).map f := by
  induction path generalizing nodes with
  | nil => rfl
  | cons place path ih =>
    rw [revise, containerAt?, find?_inside, containerAt?]
    cases hfind : find? place nodes with
    | none => rfl
    | some node => simp [Node.children_fill (isAt_of_find? hfind), ih]

/-- Where a container stays as it is, nothing is revised. -/
theorem revise_eq_self {f : List Node → List Node} {inner : List Node}
    (h : containerAt? path nodes = some inner) (hf : f inner = inner) :
    revise f path nodes = nodes := by
  induction path generalizing nodes with
  | nil =>
    cases h
    exact hf
  | cons place path ih =>
    refine inside_eq_self fun node hnode => ih ?_
    rwa [containerAt?, hnode] at h

/-- Two revisions of one container are one. -/
theorem revise_comp {f g : List Node → List Node} (hf : KeepsSome f) (path : List Place)
    (nodes : List Node) : revise f path (revise g path nodes) = revise (f ∘ g) path nodes := by
  have hkeeps (path : List Place) : KeepsSome (revise f path) := by
    cases path with
    | nil => exact hf
    | cons place path => exact keepsSome_inside place _
  induction path generalizing nodes with
  | nil => rfl
  | cons place path ih =>
    rw [revise, revise, revise, inside_inside (hkeeps path)]
    exact inside_congr fun node _ => ih node.children

/-- A value that is there already revises nothing. -/
theorem revise_declare_eq_self (h : valueAt? path property nodes = some value) :
    revise (declare property value) path nodes = nodes := by
  obtain ⟨inner, hinner, hvalue⟩ := Option.bind_eq_some_iff.mp h
  exact revise_eq_self hinner (declare_eq_self hvalue)

/-- A property at the end of a path, by the node that the path starts with. -/
theorem isSome_valueAt?_cons {place : Place} {node : Node}
    (h : (valueAt? (place :: path) property nodes).isSome) (hnode : find? place nodes = some node) :
    (valueAt? path property node.children).isSome := by
  rwa [valueAt?, containerAt?, hnode] at h

/-- **The last of two revisions of one value counts.** -/
theorem revise_revise (path : List Place) (nodes : List Node) :
    revise (declare property value) path (revise (declare property value') path nodes) =
      revise (declare property value) path nodes := by
  have hlast : declare property value ∘ declare property value' = declare property value :=
    funext declare_declare
  rw [revise_comp (keepsSome_declare property value), hlast]

/-- **Revisions of two values do not depend on their order.** -/
theorem revise_comm (hne : path ≠ path' ∨ property ≠ property')
    (h : (valueAt? path property nodes).isSome) (h' : (valueAt? path' property' nodes).isSome) :
    revise (declare property value) path (revise (declare property' value') path' nodes) =
      revise (declare property' value') path' (revise (declare property value) path nodes) := by
  induction path generalizing path' nodes with
  | nil =>
    cases path' with
    | nil =>
      rw [valueAt?, containerAt?, Option.bind_some, isSome_valueOf?] at h h'
      exact declare_comm (hne.resolve_left (by simp)) h h'
    | cons place' path' => exact declare_inside_comm place' _ nodes
  | cons place path ih =>
    cases path' with
    | nil => exact (declare_inside_comm place _ nodes).symm
    | cons place' path' =>
      -- The paths part at the first places that differ; until then, they differ further inside.
      by_cases hplace : place = place'
      · subst hplace
        simp only [revise]
        rw [inside_inside (keepsSome_revise property value path),
          inside_inside (keepsSome_revise property' value' path')]
        refine inside_congr fun node hnode => ih ?_ (isSome_valueAt?_cons h hnode)
          (isSome_valueAt?_cons h' hnode)
        exact hne.imp_left fun hne hpath => hne (by rw [hpath])
      · exact inside_comm hplace nodes

end Path

end Restyle.Css
