import Restyle.Proofs.Css.Edit

/-!
# What a path leads to

A path of places is followed by first match (`Restyle.Css.containerAt?`), and a property has
the value of its first declaration (`Restyle.Css.valueAt?`). What grows keeps both: a path
leads to the same container as before, and a property has another value only where one was
written.
-/

namespace Restyle.Css

/-- The nodes of the container that a path of places leads to. -/
def containerAt? : List Place → List Node → Option (List Node)
  | [], nodes => some nodes
  | place :: path, nodes => (find? place nodes).bind fun node => containerAt? path node.children

/-- The value of a property in the container that a path leads to. -/
def valueAt? (path : List Place) (property : String) (nodes : List Node) : Option String :=
  (containerAt? path nodes).bind (valueOf? property)

/-! ### The first declaration -/

theorem valueOf?_declaration (property other value : String) (layout : Layout)
    (rest : List Node) :
    valueOf? property (.declaration other value layout :: rest) =
      if other = property then some value else valueOf? property rest := by
  by_cases h : other = property <;> simp [valueOf?, Node.declaration?, h]

theorem valueOf?_cons_of_not_declares {property : String} {node : Node}
    (h : ¬node.declares property) (rest : List Node) :
    valueOf? property (node :: rest) = valueOf? property rest := by
  cases node with
  | declaration other value layout =>
    rw [valueOf?_declaration, if_neg (by simpa [Node.declares, Node.declaration?] using h)]
  | _ => simp [valueOf?, Node.declaration?]

/-- A property is declared exactly if it has a value. -/
theorem isSome_valueOf? (property : String) (nodes : List Node) :
    (valueOf? property nodes).isSome = isDeclared property nodes := by
  induction nodes with
  | nil => rfl
  | cons node rest ih =>
    by_cases h : node.declares property
    · cases node <;> simp_all [Node.declares, Node.declaration?, valueOf?, isDeclared]
    · rw [valueOf?_cons_of_not_declares h, ih]
      simp [isDeclared, h]

/-- The node that is found is at the place. -/
theorem isAt_of_find? {place : Place} {nodes : List Node} {node : Node}
    (h : find? place nodes = some node) : place.isAt node :=
  List.find?_some h

/-! ### Growth -/

/-- What is inside a node that grows does so as well. -/
theorem Node.Grows.children {writes : Writes} {seen : List Node} {node grown : Node}
    (h : node.Grows writes seen grown) {place : Place} (hplace : place.isAt node) :
    NodesGrow (fun path => writes (place :: path)) [] node.children grown.children := by
  have hwithin : (writes.into seen place).Within (fun path => writes (place :: path)) :=
    fun _ _ _ hw => hw.2
  cases node with
  | rule selector nodes layout =>
    obtain ⟨nodes', rfl, hnodes⟩ := h
    obtain rfl := Place.isAt_rule.mp hplace
    exact hnodes.mono hwithin (.refl [])
  | block name params nodes layout =>
    obtain ⟨nodes', rfl, hnodes⟩ := h
    obtain rfl := (Place.isAt_of_atRule? rfl).mp hplace
    exact hnodes.mono hwithin (.refl [])
  | statement name params layout => trivial
  | declaration property value layout => trivial
  | comment text layout => trivial

@[simp] theorem Node.children_loosen (node : Node) : node.loosen.children = node.children := by
  rw [Node.loosen_eq]
  cases node <;> rfl

/-- What is found at a place is found there again, grown. -/
theorem SheetGrows.find? {writes : Writes} {behindNew : Bool} {seen old new : List Node}
    (h : SheetGrows writes behindNew seen old new) {place : Place} {node : Node}
    (hfind : Css.find? place old = some node) :
    ∃ grown, Css.find? place new = some grown ∧
      NodesGrow (fun path => writes (place :: path)) [] node.children grown.children := by
  induction h with
  | added => simp [Css.find?] at hfind
  | @insert _ _ _ _ other _ hplace _ ih =>
    obtain ⟨grown, hgrown, hchildren⟩ := ih hfind
    have hother : ¬place.isAt other := fun hat =>
      hplace place hat node (List.mem_of_find?_eq_some hfind) (isAt_of_find? hfind)
    exact ⟨grown, by simpa [Css.find?, hother] using hgrown, hchildren⟩
  | @keep _ _ _ _ other grown kept hgrows hkept _ ih =>
    by_cases hat : place.isAt other
    · obtain rfl : other = node := by simpa [Css.find?, hat] using hfind
      refine ⟨kept, ?_, ?_⟩
      · simp [Css.find?, (alike_of_kept hgrows hkept).isAt, hat]
      · rcases hkept with rfl | ⟨-, rfl⟩
        · exact hgrows.children hat
        · rw [Node.children_loosen]
          exact hgrows.children hat
    · obtain ⟨grown, hgrown, hchildren⟩ := ih (by simpa [Css.find?, hat] using hfind)
      refine ⟨grown, ?_, hchildren⟩
      simpa [Css.find?, (alike_of_kept hgrows hkept).isAt, hat] using hgrown

/-- **A path leads to the same container, grown.** -/
theorem SheetGrows.containerAt? {path : List Place} :
    ∀ {writes : Writes} {old new inner : List Node}, SheetGrows writes false [] old new →
      Css.containerAt? path old = some inner →
      ∃ inner', Css.containerAt? path new = some inner' ∧
        SheetGrows (fun places => writes (path ++ places)) false [] inner inner' := by
  induction path with
  | nil =>
    intro writes old new inner h hinner
    cases hinner
    exact ⟨new, rfl, h⟩
  | cons place path ih =>
    intro writes old new inner h hinner
    obtain ⟨node, hnode, hinner⟩ := Option.bind_eq_some_iff.mp hinner
    obtain ⟨grown, hgrown, hchildren⟩ := h.find? hnode
    obtain ⟨inner', hinner', hgrows⟩ := ih (hchildren.sheetGrows false) hinner
    exact ⟨inner', by simp [Css.containerAt?, hgrown, hinner'], hgrows⟩

/-- A property that has a value keeps it or takes one that is written. -/
theorem SheetGrows.valueOf? {writes : Writes} {behindNew : Bool} {seen old new : List Node}
    (h : SheetGrows writes behindNew seen old new) {property value : String}
    (hvalue : Css.valueOf? property old = some value) :
    ∃ value', Css.valueOf? property new = some value' ∧
      (value' = value ∨ writes [] property value') := by
  induction h with
  | added => simp [Css.valueOf?] at hvalue
  | insert hdeclaration _ _ ih =>
    rw [valueOf?_cons_of_not_declares (by simp [Node.declares, hdeclaration])]
    exact ih hvalue
  | @keep _ _ _ _ node grown kept hgrows hkept _ ih =>
    by_cases hdeclares : node.declares property
    · cases node with
      | declaration other old layout =>
        obtain rfl : other = property := by
          simpa [Node.declares, Node.declaration?] using hdeclares
        obtain rfl : old = value := by simpa [valueOf?_declaration] using hvalue
        obtain ⟨value', rfl, hvalue'⟩ := hgrows
        refine ⟨value', ?_, hvalue'.imp_right And.right⟩
        rcases hkept with rfl | ⟨-, rfl⟩
        · simp [valueOf?_declaration]
        · simp [Node.loosen_eq, Node.withLayout, valueOf?_declaration]
      | _ => simp [Node.declares, Node.declaration?] at hdeclares
    · rw [valueOf?_cons_of_not_declares hdeclares] at hvalue
      rw [valueOf?_cons_of_not_declares (by rwa [(alike_of_kept hgrows hkept).declares])]
      exact ih hvalue

/-- **A property at a path keeps its value or takes one that is written.** -/
theorem SheetGrows.valueAt? {writes : Writes} {old new : List Node}
    (h : SheetGrows writes false [] old new) {path : List Place} {property value : String}
    (hvalue : Css.valueAt? path property old = some value) :
    ∃ value', Css.valueAt? path property new = some value' ∧
      (value' = value ∨ writes path property value') := by
  obtain ⟨inner, hinner, hvalue⟩ := Option.bind_eq_some_iff.mp hvalue
  obtain ⟨inner', hinner', hgrows⟩ := h.containerAt? hinner
  obtain ⟨value', hvalue', hwrites⟩ := hgrows.valueOf? hvalue
  refine ⟨value', by simp [Css.valueAt?, hinner', hvalue'], ?_⟩
  simpa using hwrites

/-- What is somewhere in a style sheet is somewhere in it afterwards. -/
theorem SheetGrows.any_isAt {writes : Writes} {behindNew : Bool} {seen old new : List Node}
    (h : SheetGrows writes behindNew seen old new) {place : Place} (hany : old.any place.isAt) :
    new.any place.isAt := by
  by_contra hnone
  obtain ⟨node, hnode, hat⟩ := List.any_eq_true.mp hany
  have hnew : ∀ other ∈ new, ¬place.isAt other := fun other hother hat' =>
    hnone (List.any_eq_true.mpr ⟨other, hother, hat'⟩)
  exact h.not_isAt hnew node hnode hat

end Restyle.Css
