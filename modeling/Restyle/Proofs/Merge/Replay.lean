import Restyle.Proofs.Css.Frame
import Restyle.Proofs.Merge.Additive

/-!
# Making edits again

Edits that were made are there: whatever they ask for is found where they ask for it
(`Restyle.Merge.Edit.Holds`), and growth keeps it there. Making them again therefore adds
nothing. It may still revise values, since several edits may write one value, and then the
first of them undoes the last. But the last one is made again as well, and a revision counts
only if no later one is of the same value (`Restyle.Merge.makeAll_make`).
-/

namespace Restyle.Merge

open Restyle.Css (Node NodesGrow Place SheetGrows Writes containerAt? find? revise valueAt?)

/-! ### What is there -/

/-- What an edit asks for is there, whatever the value of a declaration. -/
def Edit.Holds : Edit → List Node → Prop
  | .reach path, nodes => (containerAt? path.places nodes).isSome
  | .declare path property _, nodes => (valueAt? path.places property nodes).isSome
  | .state path name params _, nodes =>
    ∃ inner, containerAt? path.places nodes = some inner ∧
      inner.any (Place.atRule name params).isAt
  | .importSheet params, nodes => nodes.any (Place.atRule "import" params).isAt
  | .plugin params, nodes => nodes.any (Node.loadsPlugin (Css.quotedPlugin params))

/-- **What is there stays there.** -/
theorem Edit.Holds.of_sheetGrows {writes : Writes} {old new : List Node}
    (h : SheetGrows writes false [] old new) {edit : Edit} (hholds : edit.Holds old) :
    edit.Holds new := by
  cases edit with
  | reach path =>
    obtain ⟨inner, hinner⟩ := Option.isSome_iff_exists.mp hholds
    obtain ⟨inner', hinner', -⟩ := h.containerAt? hinner
    simp [Edit.Holds, hinner']
  | declare path property value =>
    obtain ⟨old, hold⟩ := Option.isSome_iff_exists.mp hholds
    obtain ⟨value', hvalue', -⟩ := h.valueAt? hold
    simp [Edit.Holds, hvalue']
  | state path name params withBreak =>
    obtain ⟨inner, hinner, hany⟩ := hholds
    obtain ⟨inner', hinner', hgrows⟩ := h.containerAt? hinner
    exact ⟨inner', hinner', hgrows.any_isAt hany⟩
  | importSheet params => exact h.any_isAt hholds
  | plugin params =>
    obtain ⟨params', hquoted, hany⟩ := Css.any_loadsPlugin_iff.mp hholds
    exact Css.any_loadsPlugin_iff.mpr ⟨params', hquoted, h.any_isAt hany⟩

/-! ### What an edit leaves there -/

theorem any_isAt_push {place : Place} {node : Node} (h : place.isAt node) (withBreak : Bool)
    (nodes : List Node) : (Css.push withBreak node nodes).any place.isAt := by
  unfold Css.push
  split_ifs <;> simp [h]

theorem any_isAt_reach (place : Place) (withBreak : Bool) (nodes : List Node) :
    (Css.reach place withBreak nodes).any place.isAt := by
  unfold Css.reach
  split_ifs with h
  · exact h
  · exact any_isAt_push (Css.isAt_fresh place) withBreak nodes

/-- A place that has been reached is found. -/
theorem exists_find?_reach (place : Place) (withBreak : Bool) (nodes : List Node) :
    ∃ node, find? place (Css.reach place withBreak nodes) = some node :=
  Option.isSome_iff_exists.mp
    (List.find?_isSome.mpr (List.any_eq_true.mp (any_isAt_reach place withBreak nodes)))

theorem containerAt?_enter (place : Place) (withBreak : Bool) (f : List Node → List Node)
    (path : List Place) (nodes : List Node) :
    ∃ inner, containerAt? (place :: path) (Css.enter place withBreak f nodes) =
      containerAt? path (f inner) := by
  obtain ⟨node, hnode⟩ := exists_find?_reach place withBreak nodes
  refine ⟨node.children, ?_⟩
  rw [Css.enter, containerAt?, Css.find?_inside, hnode]
  simp [Css.Node.children_fill (Css.isAt_of_find? hnode)]

/-- A path that has been followed leads to what was made at its end. -/
theorem containerAt?_alongPath (f : List Node → List Node) (path : Path) (nodes : List Node) :
    ∃ inner, containerAt? path.places (alongPath f path nodes) = some (f inner) := by
  induction path generalizing nodes with
  | nil => exact ⟨nodes, rfl⟩
  | cons step path ih =>
    obtain ⟨inner, hinner⟩ := containerAt?_enter step.place step.withBreak (alongPath f path)
      (Path.places path) nodes
    obtain ⟨last, hlast⟩ := ih inner
    exact ⟨last, hinner.trans hlast⟩

theorem containerAt?_reachPath (path : Path) (nodes : List Node) :
    (containerAt? path.places (reachPath path nodes)).isSome := by
  induction path generalizing nodes with
  | nil => rfl
  | cons step path ih =>
    cases path with
    | nil =>
      obtain ⟨node, hnode⟩ := exists_find?_reach step.place step.withBreak nodes
      simp [Path.places, reachPath, containerAt?, hnode]
    | cons next path =>
      obtain ⟨inner, hinner⟩ := containerAt?_enter step.place step.withBreak
        (reachPath (next :: path)) (Path.places (next :: path)) nodes
      rw [Path.places, List.map_cons, reachPath]
      exact hinner ▸ ih inner

theorem any_isAt_insertAt {place : Place} {node : Node} {new : List Node} (hnode : node ∈ new)
    (h : place.isAt node) (index : Nat) (nodes : List Node) :
    (Css.insertAt index new nodes).any place.isAt := by
  unfold Css.insertAt
  split_ifs with hempty
  · simp [List.isEmpty_iff.mp hempty] at hnode
  · exact List.any_eq_true.mpr ⟨node, by simp [hnode], h⟩

/-- **An edit that was made is there.** -/
theorem Edit.holds_make (edit : Edit) (nodes : List Node) : edit.Holds (edit.make nodes) := by
  cases edit with
  | reach path => exact containerAt?_reachPath path nodes
  | declare path property value =>
    obtain ⟨inner, hinner⟩ := containerAt?_alongPath (Css.declare property value) path nodes
    simp [Edit.Holds, Edit.make, valueAt?, hinner, Css.valueOf?_declare]
  | state path name params withBreak =>
    obtain ⟨inner, hinner⟩ :=
      containerAt?_alongPath (Css.ensureStatement name params withBreak) path nodes
    refine ⟨_, hinner, ?_⟩
    unfold Css.ensureStatement
    split_ifs with h
    · exact h
    · exact any_isAt_push (by simp [Place.isAt, Node.atRule?]) withBreak inner
  | importSheet params =>
    simp only [Edit.Holds, Edit.make]
    unfold Css.ensureImport
    split_ifs with h
    · exact h
    · exact any_isAt_insertAt (List.mem_singleton_self _) (by simp [Place.isAt, Node.atRule?]) _
        nodes
  | plugin params =>
    simp only [Edit.Holds, Edit.make]
    rw [Css.ensurePlugin_eq]
    split_ifs with h
    · exact h
    · -- behind the last plugin, behind the last import or in front: it is inserted in any case
      have hnew (index : Nat) {new : List Node}
          (hmem : .statement "plugin" (Css.writtenPlugin params) {} ∈ new) :
          (Css.insertAt index new nodes).any (Node.loadsPlugin (Css.quotedPlugin params)) :=
        Css.any_loadsPlugin_iff.mpr ⟨Css.writtenPlugin params,
          Css.quotedPlugin_writtenPlugin params,
          any_isAt_insertAt hmem (by simp [Place.isAt, Node.atRule?]) index nodes⟩
      split <;> exact hnew _ (by simp)

/-- A declaration that was made has its value. -/
theorem valueAt?_make (path : Path) (property value : String) (nodes : List Node) :
    valueAt? path.places property ((Edit.declare path property value).make nodes) = some value := by
  obtain ⟨inner, hinner⟩ := containerAt?_alongPath (Css.declare property value) path nodes
  simp [Edit.make, valueAt?, hinner, Css.valueOf?_declare]

/-! ### An edit of what is there -/

/-- Nothing is made on a path that leads somewhere. -/
theorem alongPath_eq_revise {f : List Node → List Node} {path : Path} {nodes : List Node}
    (h : (containerAt? path.places nodes).isSome) :
    alongPath f path nodes = revise f path.places nodes := by
  induction path generalizing nodes with
  | nil => rfl
  | cons step path ih =>
    obtain ⟨inner, hinner⟩ := Option.isSome_iff_exists.mp h
    obtain ⟨node, hnode, hinner⟩ := Option.bind_eq_some_iff.mp hinner
    rw [alongPath, Css.enter_eq_inside hnode, Path.places, List.map_cons, revise]
    refine Css.inside_congr fun other hother => ih ?_
    obtain rfl : other = node := by simpa [hnode, eq_comm] using hother
    exact Option.isSome_iff_exists.mpr ⟨inner, hinner⟩

theorem reachPath_eq_self {path : Path} {nodes : List Node}
    (h : (containerAt? path.places nodes).isSome) : reachPath path nodes = nodes := by
  induction path generalizing nodes with
  | nil => rfl
  | cons step path ih =>
    obtain ⟨inner, hinner⟩ := Option.isSome_iff_exists.mp h
    obtain ⟨node, hnode, hinner⟩ := Option.bind_eq_some_iff.mp hinner
    cases path with
    | nil =>
      have hany : nodes.any step.place.isAt :=
        List.any_eq_true.mpr ⟨node, List.mem_of_find?_eq_some hnode, Css.isAt_of_find? hnode⟩
      rw [reachPath, Css.reach, if_pos hany]
    | cons next path =>
      rw [reachPath, Css.enter_eq_inside hnode]
      refine Css.inside_eq_self fun other hother => ih ?_
      obtain rfl : other = node := by simpa [hnode, eq_comm] using hother
      exact Option.isSome_iff_exists.mpr ⟨inner, hinner⟩

/-- The value that an edit writes to a property at a path. -/
def Edit.written? (places : List Place) (property : String) : Edit → Option String
  | .declare path other value =>
    if path.places = places ∧ other = property then some value else none
  | _ => none

/-- A declaration that is there is revised. -/
theorem make_declare_of_holds {path : Path} {property value : String} {nodes : List Node}
    (h : (Edit.declare path property value).Holds nodes) :
    (Edit.declare path property value).make nodes =
      revise (Css.declare property value) path.places nodes := by
  obtain ⟨old, hold⟩ := Option.isSome_iff_exists.mp h
  obtain ⟨inner, hinner, -⟩ := Option.bind_eq_some_iff.mp hold
  exact alongPath_eq_revise (Option.isSome_iff_exists.mpr ⟨inner, hinner⟩)

/-- **An edit of what is there changes nothing but the value that it writes.** -/
theorem Edit.make_of_holds {edit : Edit} {nodes : List Node} (h : edit.Holds nodes)
    (hvalue : ∀ places property value, edit.written? places property = some value →
      valueAt? places property nodes = some value) : edit.make nodes = nodes := by
  cases edit with
  | reach path => exact reachPath_eq_self h
  | declare path property value =>
    rw [make_declare_of_holds h]
    exact Css.revise_declare_eq_self (hvalue path.places property value (by simp [Edit.written?]))
  | state path name params withBreak =>
    obtain ⟨inner, hinner, hany⟩ := h
    rw [Edit.make, alongPath_eq_revise (Option.isSome_iff_exists.mpr ⟨inner, hinner⟩)]
    exact Css.revise_eq_self hinner (if_pos hany)
  | importSheet params => exact if_pos h
  | plugin params => exact if_pos h

/-! ### All edits again -/

theorem makeAll_cons (edit : Edit) (edits : List Edit) (nodes : List Node) :
    makeAll (edit :: edits) nodes = makeAll edits (edit.make nodes) := rfl

/-- The value that the last of some edits writes to a property at a path. -/
def lastWritten? (places : List Place) (property : String) : List Edit → Option String
  | [] => none
  | edit :: edits => (lastWritten? places property edits).or (edit.written? places property)

theorem writes_iff_written? {edit : Edit} {places : List Place} {property value : String} :
    edit.writes places property value ↔ edit.written? places property = some value := by
  cases edit <;> simp [Edit.writes, Edit.written?, eq_comm, and_assoc]

theorem lastWritten?_isSome_of_writesOf {edits : List Edit} {places : List Place}
    {property value : String} (h : writesOf edits places property value) :
    (lastWritten? places property edits).isSome := by
  induction edits with
  | nil =>
    obtain ⟨edit, hedit, -⟩ := h
    cases hedit
  | cons edit edits ih =>
    obtain ⟨other, hother, h⟩ := h
    rw [lastWritten?, Option.isSome_or, Bool.or_eq_true]
    rcases List.mem_cons.mp hother with rfl | hother
    · exact .inr (by simp [writes_iff_written?.mp h])
    · exact .inl (ih ⟨other, hother, h⟩)

/-- **All edits are there once they were made.** -/
theorem holds_makeAll {edits : List Edit} {edit : Edit} (hedit : edit ∈ edits)
    (nodes : List Node) : edit.Holds (makeAll edits nodes) := by
  induction edits generalizing nodes with
  | nil => cases hedit
  | cons first edits ih =>
    rcases List.mem_cons.mp hedit with rfl | hedit
    · exact (edit.holds_make nodes).of_sheetGrows (sheetGrows_makeAll edits (edit.make nodes))
    · exact ih hedit (first.make nodes)

/-- **The last value that was written is there.** -/
theorem valueAt?_makeAll {edits : List Edit} {places : List Place} {property value : String}
    (h : lastWritten? places property edits = some value) (nodes : List Node) :
    valueAt? places property (makeAll edits nodes) = some value := by
  induction edits generalizing nodes with
  | nil => cases h
  | cons edit edits ih =>
    rw [lastWritten?] at h
    cases hlast : lastWritten? places property edits with
    | some last =>
      rw [hlast, Option.some_or] at h
      exact ih (hlast.trans h) (edit.make nodes)
    | none =>
      -- No later edit writes the value, so growth keeps the one that is written here.
      rw [hlast, Option.none_or] at h
      have hmade : valueAt? places property (edit.make nodes) = some value := by
        cases edit with
        | declare path other written =>
          simp only [Edit.written?] at h
          split_ifs at h with heq
          obtain ⟨rfl, rfl⟩ := heq
          cases h
          exact valueAt?_make path other value nodes
        | _ => cases h
      obtain ⟨value', hvalue', hwrites⟩ :=
        (sheetGrows_makeAll edits (edit.make nodes)).valueAt? hmade
      rcases hwrites with rfl | hwrites
      · exact hvalue'
      · have hsome := lastWritten?_isSome_of_writesOf hwrites
        simp [hlast] at hsome

theorem Edit.Holds.make {edit : Edit} {nodes : List Node} (h : edit.Holds nodes) (other : Edit) :
    edit.Holds (other.make nodes) :=
  h.of_sheetGrows (other.sheetGrows_make nodes)

/-- An edit of another value may as well be made first. -/
theorem make_comm {edit : Edit} {path : Path} {property value : String} {nodes : List Node}
    (hholds : edit.Holds nodes) (hdeclare : (Edit.declare path property value).Holds nodes)
    (hother : edit.written? path.places property = none) :
    edit.make ((Edit.declare path property value).make nodes) =
      (Edit.declare path property value).make (edit.make nodes) := by
  cases edit with
  | declare path' property' value' =>
    have hne : path'.places ≠ path.places ∨ property' ≠ property := by
      by_contra h
      simp_all [Edit.written?]
    rw [make_declare_of_holds hholds, make_declare_of_holds hdeclare,
      make_declare_of_holds (make_declare_of_holds hdeclare ▸ hholds.make _),
      make_declare_of_holds (make_declare_of_holds hholds ▸ hdeclare.make _)]
    exact Css.revise_comm hne hholds hdeclare
  | _ =>
    rw [Edit.make_of_holds hholds (by simp [Edit.written?]),
      Edit.make_of_holds (hholds.make _) (by simp [Edit.written?])]

/-- **A revision counts only if no later one is of the same value.** -/
theorem makeAll_make {edits : List Edit} {path : Path} {property value : String}
    {nodes : List Node} (hholds : ∀ edit ∈ edits, edit.Holds nodes)
    (hdeclare : (Edit.declare path property value).Holds nodes)
    (hlater : (lastWritten? path.places property edits).isSome) :
    makeAll edits ((Edit.declare path property value).make nodes) = makeAll edits nodes := by
  induction edits generalizing nodes with
  | nil => cases hlater
  | cons edit edits ih =>
    have hedit : edit.Holds nodes := hholds edit List.mem_cons_self
    rw [makeAll_cons, makeAll_cons]
    -- The next edit of the same value overwrites the revision, which is moved past any other.
    cases hwritten : edit.written? path.places property with
    | some written =>
      cases edit with
      | declare path' property' value' =>
        simp only [Edit.written?] at hwritten
        split_ifs at hwritten with heq
        obtain ⟨hpath, rfl⟩ := heq
        rw [make_declare_of_holds (hedit.make _), make_declare_of_holds hdeclare,
          make_declare_of_holds hedit, hpath, Css.revise_revise]
      | _ => cases hwritten
    | none =>
      rw [make_comm hedit hdeclare hwritten]
      refine ih (fun other hother => ?_) (hdeclare.make edit) ?_
      · exact (hholds other (List.mem_cons_of_mem _ hother)).make edit
      · simpa [lastWritten?, hwritten] using hlater

/-- **Edits that are there change nothing**, if the value that the last of them writes is
there as well. -/
theorem makeAll_eq_self {edits : List Edit} {nodes : List Node}
    (hholds : ∀ edit ∈ edits, edit.Holds nodes)
    (hlast : ∀ places property value, lastWritten? places property edits = some value →
      valueAt? places property nodes = some value) : makeAll edits nodes = nodes := by
  induction edits with
  | nil => rfl
  | cons edit edits ih =>
    have hrest : makeAll edits nodes = nodes := by
      refine ih (fun other hother => hholds other (List.mem_cons_of_mem _ hother)) ?_
      intro places property value h
      exact hlast places property value (by simp [lastWritten?, h])
    have hedit : edit.Holds nodes := hholds edit List.mem_cons_self
    rw [makeAll_cons]
    -- a declaration that is made again later need not find its own value
    by_cases hlater : ∃ path property value, edit = .declare path property value ∧
        (lastWritten? path.places property edits).isSome
    · obtain ⟨path, property, value, rfl, hlater⟩ := hlater
      rw [makeAll_make (fun other hother => hholds other (List.mem_cons_of_mem _ hother)) hedit
        hlater, hrest]
    · rw [Edit.make_of_holds hedit, hrest]
      intro places property value h
      refine hlast places property value ?_
      cases edit with
      | declare path other written =>
        have hwritten := h
        simp only [Edit.written?] at hwritten
        split_ifs at hwritten with heq
        obtain ⟨rfl, rfl⟩ := heq
        have hnone : lastWritten? path.places other edits = none := by
          by_contra hne
          exact hlater ⟨path, other, written, rfl, Option.isSome_iff_ne_none.mpr hne⟩
        rw [lastWritten?, hnone, h, Option.none_or]
      | _ => cases h

/-- **Edits that were made change nothing when they are made again.** -/
theorem makeAll_makeAll (edits : List Edit) (nodes : List Node) :
    makeAll edits (makeAll edits nodes) = makeAll edits nodes :=
  makeAll_eq_self (fun _ hedit => holds_makeAll hedit nodes)
    fun _ _ _ h => valueAt?_makeAll h nodes

/-- **Merging rules into a style sheet that they were merged into changes nothing**, layout and
break markers included, and it ends as the first merge did. -/
theorem mergeRules_mergeRules (rules : Entries Json.Value) (sheet : Css.Sheet) :
    mergeRules rules (mergeRules rules sheet).1 = mergeRules rules sheet := by
  simp only [mergeRules, makeAll_makeAll]

end Restyle.Merge
