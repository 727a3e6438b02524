import Restyle.Proofs.Css.Growth
import Restyle.Proofs.Text.Trim

/-!
# Edits are growth

Each edit of a list of nodes lets it grow, and writes nothing but what it is asked to write.
The edits of a container are those that `Restyle.Merge` makes at a path; imports and plugins
are edits of a whole style sheet.
-/

namespace Restyle.Css

variable {writes : Writes} {seen : List Node}

/-! ### What is at a place -/

section Place

variable {place : Place} {node : Node}

theorem Place.isAt_rule {selector : String} {nodes : List Node} {layout : Layout} :
    place.isAt (.rule selector nodes layout) ↔ place = .rule selector := by
  cases place with
  | rule other => simpa [isAt, Node.selector?] using eq_comm
  | atRule name params => simp [isAt, Node.atRule?]

theorem Place.isAt_of_atRule? {name params : String} (h : node.atRule? = some (name, params)) :
    place.isAt node ↔ place = .atRule name params := by
  cases place with
  | rule selector => cases node <;> simp_all [isAt, Node.selector?, Node.atRule?]
  | atRule other others =>
    simp only [isAt, h, beq_iff_eq, Option.some.injEq, Prod.mk.injEq, atRule.injEq]
    exact and_congr eq_comm eq_comm

/-- A declaration or a comment is at no place. -/
theorem Place.not_isAt_of_none (hselector : node.selector? = none) (hrule : node.atRule? = none) :
    ¬place.isAt node := by
  cases place <;> simp [isAt, hselector, hrule]

end Place

/-! ### Nodes at the end -/

theorem nodesGrow_push (withBreak : Bool) (node : Node) (nodes : List Node) :
    NodesGrow writes seen nodes (push withBreak node nodes) := by
  unfold push
  split_ifs <;> exact nodesGrow_append writes seen nodes _

theorem nodesGrow_reach (place : Place) (withBreak : Bool) (nodes : List Node) :
    NodesGrow writes seen nodes (reach place withBreak nodes) := by
  unfold reach
  split_ifs
  · exact NodesGrow.refl writes seen nodes
  · exact nodesGrow_push withBreak place.fresh nodes

theorem nodesGrow_ensureStatement (name params : String) (withBreak : Bool)
    (nodes : List Node) :
    NodesGrow writes seen nodes (ensureStatement name params withBreak nodes) := by
  unfold ensureStatement
  split_ifs
  · exact NodesGrow.refl writes seen nodes
  · exact nodesGrow_push withBreak _ nodes

/-! ### Declarations -/

/-- A property that takes a value takes it where it is declared first. -/
theorem nodesGrow_declare {property value : String} (hwrite : writes [] property value) :
    ∀ {seen : List Node} (nodes : List Node), (∀ other ∈ seen, ¬other.declares property) →
      NodesGrow writes seen nodes (declare property value nodes)
  | _, [], _ => trivial
  | seen, node :: rest, hseen => by
    have hrest (hnode : ¬node.declares property) :
        NodesGrow writes seen (node :: rest) (node :: declare property value rest) := by
      refine ⟨Node.Grows.refl writes seen node, nodesGrow_declare hwrite rest ?_⟩
      intro other hother
      rcases List.mem_append.mp hother with hother | hother
      · exact hseen other hother
      · rwa [List.mem_singleton.mp hother]
    cases node with
    | declaration other old layout =>
      rw [declare]
      split_ifs with hother
      · exact ⟨⟨value, rfl, .inr ⟨hother ▸ hseen, hother ▸ hwrite⟩⟩, NodesGrow.refl ..⟩
      · exact hrest (by simpa [Node.declares, Node.declaration?] using hother)
    | _ => exact hrest (by simp [Node.declares, Node.declaration?])

/-! ### Inside a node -/

/-- What is written inside a place, as what may be written into its node. -/
theorem Writes.within_into {place : Place} (hseen : ∀ other ∈ seen, ¬place.isAt other) :
    Writes.Within (fun path => writes (place :: path)) (writes.into seen place) :=
  fun _ _ _ h => ⟨hseen, h⟩

/-- A node at a place grows when what is inside it does. -/
theorem Node.grows_fill {place : Place} {node : Node} {f : List Node → List Node}
    (hplace : place.isAt node) (hseen : ∀ other ∈ seen, ¬place.isAt other)
    (hf : ∀ nodes, NodesGrow (fun path => writes (place :: path)) [] nodes (f nodes)) :
    node.Grows writes seen (node.fill f) := by
  have hgrows (nodes : List Node) : NodesGrow (writes.into seen place) [] nodes (f nodes) :=
    (hf nodes).mono (Writes.within_into hseen) (.refl [])
  cases node with
  | rule selector nodes layout =>
    obtain rfl := Place.isAt_rule.mp hplace
    exact ⟨f nodes, rfl, hgrows nodes⟩
  | block name params nodes layout =>
    obtain rfl := (Place.isAt_of_atRule? rfl).mp hplace
    exact ⟨f nodes, rfl, hgrows nodes⟩
  | statement name params layout =>
    unfold Node.fill
    split_ifs with hempty
    · exact Or.inl rfl
    · exact Or.inr ⟨f [], by simpa using hempty, rfl⟩
  | declaration property value layout => exact ⟨value, rfl, Or.inl rfl⟩
  | comment text layout => rfl

/-- The first node at a place is the one that grows. -/
theorem nodesGrow_inside {place : Place} {f : List Node → List Node}
    (hf : ∀ nodes, NodesGrow (fun path => writes (place :: path)) [] nodes (f nodes)) :
    ∀ {seen : List Node} (nodes : List Node), (∀ other ∈ seen, ¬place.isAt other) →
      NodesGrow writes seen nodes (inside place f nodes)
  | _, [], _ => trivial
  | seen, node :: rest, hseen => by
    rw [inside]
    split_ifs with hplace
    · exact ⟨Node.grows_fill hplace hseen hf, NodesGrow.refl ..⟩
    · refine ⟨Node.Grows.refl writes seen node, nodesGrow_inside hf rest ?_⟩
      intro other hother
      rcases List.mem_append.mp hother with hother | hother
      · exact hseen other hother
      · rwa [List.mem_singleton.mp hother]

/-- An edit at a place, which is made where it is missing. -/
theorem nodesGrow_enter {place : Place} {f : List Node → List Node} (withBreak : Bool)
    (hf : ∀ nodes, NodesGrow (fun path => writes (place :: path)) [] nodes (f nodes))
    (nodes : List Node) : NodesGrow writes [] nodes (enter place withBreak f nodes) :=
  NodesGrow.trans (fun _ _ _ h => h) (fun _ _ _ h => h) (.refl [])
    (nodesGrow_reach place withBreak nodes : NodesGrow writes [] nodes _)
    (nodesGrow_inside hf (reach place withBreak nodes) (by simp))

/-! ### Imports and plugins -/

theorem insertAt_succ (index : Nat) (new : List Node) (node : Node) (rest : List Node) :
    insertAt (index + 1) new (node :: rest) = node :: insertAt index new rest := by
  unfold insertAt
  split_ifs <;> rfl

/-- Nodes in front of others, the first of which is loosened. -/
theorem sheetGrows_insertAt {new : List Node}
    (hdeclaration : ∀ node ∈ new, node.declaration? = none) :
    ∀ {behindNew : Bool} {seen : List Node} (index : Nat) (nodes : List Node),
      (∀ node ∈ new, ∀ place : Place, place.isAt node → ∀ other ∈ nodes, ¬place.isAt other) →
      SheetGrows writes behindNew seen nodes (insertAt index new nodes)
  | _, _, _, [], _ => .added
  | behindNew, seen, 0, next :: rest, hplace => by
    unfold insertAt
    split_ifs with hempty
    · exact SheetGrows.refl writes behindNew seen _
    · have hrest : SheetGrows writes true seen (next :: rest) (next.loosen :: rest) :=
        .keep (Node.Grows.refl writes seen next) (.inr ⟨rfl, rfl⟩)
          (SheetGrows.refl writes false _ rest)
      have hinsert (front : List Node) (hfront : front ⊆ new) (behindNew : Bool)
          (hne : front = [] → behindNew = true) :
          SheetGrows writes behindNew seen (next :: rest) (front ++ next.loosen :: rest) := by
        induction front generalizing behindNew with
        | nil => exact hne rfl ▸ hrest
        | cons node front ih =>
          obtain ⟨hnode, hfront⟩ := List.cons_subset.mp hfront
          exact .insert (hdeclaration node hnode) (hplace node hnode)
            (ih hfront true fun _ => rfl)
      exact hinsert new (List.Subset.refl new) behindNew fun h => absurd h (by simpa using hempty)
  | behindNew, seen, index + 1, node :: rest, hplace => by
    have hrest : SheetGrows writes false (seen ++ [node]) rest (insertAt index new rest) :=
      sheetGrows_insertAt hdeclaration index rest fun new hnew place hat other hother =>
        hplace new hnew place hat other (List.mem_cons_of_mem _ hother)
    rw [insertAt_succ]
    exact .keep (Node.Grows.refl writes seen node) (.inl rfl) hrest

/-- An at-rule without a body, with break markers, among nodes none of which is at its place. -/
theorem sheetGrows_insertStatement {name params : String} {new nodes : List Node}
    (hnot : ∀ other ∈ nodes, ¬(Place.atRule name params).isAt other)
    (hnew : ∀ node ∈ new, node = breakMarker ∨ node = .statement name params {})
    {behindNew : Bool} (index : Nat) :
    SheetGrows writes behindNew seen nodes (insertAt index new nodes) := by
  refine sheetGrows_insertAt (fun node hnode => ?_) index nodes fun node hnode place hat => ?_
  · rcases hnew node hnode with rfl | rfl <;> rfl
  · rcases hnew node hnode with rfl | rfl
    · exact absurd hat (Place.not_isAt_of_none rfl rfl)
    · obtain rfl := (Place.isAt_of_atRule? rfl).mp hat
      exact hnot

theorem sheetGrows_ensureImport (params : String) (nodes : List Node) :
    SheetGrows writes false [] nodes (ensureImport params nodes) := by
  unfold ensureImport
  split_ifs with hany
  · exact SheetGrows.refl writes false [] nodes
  · have hnot : ∀ other ∈ nodes, ¬(Place.atRule "import" params).isAt other := by simpa using hany
    exact sheetGrows_insertStatement hnot (by simp) _

/-- Quotes around a name are no part of it. -/
theorem bare_quoted {c : Char} (hc : isQuote c) (name : List Char) :
    ((c :: (name ++ [c])).dropWhile isQuote).rdropWhile isQuote =
      (name.dropWhile isQuote).rdropWhile isQuote := by
  rw [List.dropWhile_cons_of_pos hc, List.dropWhile_append]
  split_ifs with hempty
  · rw [List.isEmpty_iff.mp hempty, List.dropWhile_cons_of_pos hc]
    rfl
  · rw [List.rdropWhile_concat_pos _ _ _ hc]

/-- A name in quotes is the same plugin in quotes. -/
@[simp] theorem quotedPlugin_quotedPlugin (params : String) :
    quotedPlugin (quotedPlugin params) = quotedPlugin params := by
  simp only [quotedPlugin, String.toList_ofList, Text.dropEndWhile_eq_rdropWhile,
    Text.trim_between (c := '"') (d := '"') (by decide) (by decide)]
  have hbare (name : List Char) : ((name.dropWhile isQuote).rdropWhile isQuote).dropWhile isQuote =
      (name.dropWhile isQuote).rdropWhile isQuote :=
    Text.dropWhile_of_prefix (List.rdropWhile_prefix isQuote _)
      (List.dropWhile_idempotent isQuote _)
  rw [bare_quoted (by decide), hbare, List.rdropWhile_idempotent]

/-- So is the name without the blanks around it. -/
@[simp] theorem quotedPlugin_trim (params : String) :
    quotedPlugin (String.ofList (Text.trim params.toList)) = quotedPlugin params := by
  simp [quotedPlugin]

/-- What is written of a plugin: its name in the quotes that it has, or in double quotes. -/
def writtenPlugin (params : String) : String :=
  match Text.trim params.toList with
  | c :: rest => if isQuote c then String.ofList (c :: rest) else quotedPlugin params
  | [] => quotedPlugin params

/-- It is the plugin that was asked for. -/
@[simp] theorem quotedPlugin_writtenPlugin (params : String) :
    quotedPlugin (writtenPlugin params) = quotedPlugin params := by
  unfold writtenPlugin
  split
  · next c rest htrim =>
    split_ifs
    · rw [← htrim, quotedPlugin_trim]
    · exact quotedPlugin_quotedPlugin params
  · exact quotedPlugin_quotedPlugin params

/-- A plugin that is loaded is loaded by an at-rule with some parameters. -/
theorem any_loadsPlugin_iff {quoted : String} {nodes : List Node} :
    nodes.any (Node.loadsPlugin quoted) ↔
      ∃ params, quotedPlugin params = quoted ∧
        nodes.any (Place.atRule "plugin" params).isAt := by
  simp only [List.any_eq_true]
  constructor
  · rintro ⟨node, hnode, hloads⟩
    unfold Node.loadsPlugin at hloads
    split at hloads
    · next name params hrule =>
      simp only [Bool.and_eq_true, beq_iff_eq] at hloads
      exact ⟨params, hloads.2, node, hnode, by simp [Place.isAt, hrule, hloads.1]⟩
    · cases hloads
  · rintro ⟨params, rfl, node, hnode, hat⟩
    have hrule : node.atRule? = some ("plugin", params) := by simpa [Place.isAt] using hat
    exact ⟨node, hnode, by simp [Node.loadsPlugin, hrule]⟩

/-- A plugin that is missing goes behind the last plugin, behind the last import, or in
front. -/
theorem ensurePlugin_eq (params : String) (nodes : List Node) :
    ensurePlugin params nodes =
      if nodes.any (Node.loadsPlugin (quotedPlugin params)) then nodes
      else match lastAtRule? "plugin" nodes, lastAtRule? "import" nodes with
        | some last, _ => insertAt (last + 1) [.statement "plugin" (writtenPlugin params) {}] nodes
        | none, some last =>
          insertAt (last + 1) [breakMarker, .statement "plugin" (writtenPlugin params) {}] nodes
        | none, none =>
          insertAt 0 [.statement "plugin" (writtenPlugin params) {}, breakMarker] nodes := by
  unfold ensurePlugin writtenPlugin
  cases Text.trim params.toList <;> cases lastAtRule? "plugin" nodes <;>
    cases lastAtRule? "import" nodes <;> rfl

theorem sheetGrows_ensurePlugin (params : String) (nodes : List Node) :
    SheetGrows writes false [] nodes (ensurePlugin params nodes) := by
  rw [ensurePlugin_eq]
  split_ifs with hany
  · exact SheetGrows.refl writes false [] nodes
  · have hnot : ∀ other ∈ nodes, ¬(Place.atRule "plugin" (writtenPlugin params)).isAt other := by
      intro other hother hat
      have hrule : other.atRule? = some ("plugin", writtenPlugin params) := by
        simpa [Place.isAt] using hat
      exact hany (List.any_eq_true.mpr ⟨other, hother, by simp [Node.loadsPlugin, hrule]⟩)
    split <;> exact sheetGrows_insertStatement hnot (by simp) _

end Restyle.Css
