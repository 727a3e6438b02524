import Restyle.Proofs.Css.Outline
import Restyle.Proofs.Merge.Replay
import Restyle.Theme.Inline
import Restyle.Theme.Modes

/-!
# Settled declarations

Variables are written by three kinds of writes: an assignment, which may replace what is
declared, an insertion, which never does, and the one or the other for the entries of the
theme. After writing, the properties are declared, with the last value of each if values may
be replaced: the declarations are *settled* (`Restyle.Theme.Settled`). And where they are
settled, writing them changes nothing.
-/

namespace Restyle.Theme

open Restyle.Css (Node isDeclared outline valueOf?)
open Restyle.Merge (Edit makeAll)

/-- The value that the last of some declarations gives to a property. -/
def lastValue? (property : String) : List (String × String) → Option String
  | [] => none
  | (other, value) :: rest =>
    (lastValue? property rest).or (if other = property then some value else none)

/-- **Declarations are settled** where each property of theirs is declared, with its last value
if values may be replaced. -/
def Settled (overwrite : Bool) (declarations : List (String × String)) (nodes : List Node) :
    Prop :=
  ∀ property value, lastValue? property declarations = some value →
    ∃ old, valueOf? property nodes = some old ∧ (overwrite → old = value)

variable {overwrite : Bool} {declarations : List (String × String)} {nodes : List Node}
  {property other value : String}

theorem isSome_lastValue? {declaration : String × String} (h : declaration ∈ declarations) :
    (lastValue? declaration.1 declarations).isSome := by
  induction declarations with
  | nil => cases h
  | cons first rest ih =>
    rw [lastValue?, Option.isSome_or, Bool.or_eq_true]
    rcases List.mem_cons.mp h with rfl | h
    · exact .inr (by simp)
    · exact .inl (ih h)

theorem Settled.isDeclared (h : Settled overwrite declarations nodes)
    {declaration : String × String} (hmem : declaration ∈ declarations) :
    Css.isDeclared declaration.1 nodes := by
  obtain ⟨value, hvalue⟩ := Option.isSome_iff_exists.mp (isSome_lastValue? hmem)
  obtain ⟨old, hold, -⟩ := h declaration.1 value hvalue
  rw [← Css.isSome_valueOf?, hold]
  rfl

/-- Only the values of properties matter. -/
theorem Settled.congr {again : List Node} (h : Settled overwrite declarations nodes)
    (hvalues : ∀ property old, valueOf? property nodes = some old →
      valueOf? property again = some old) : Settled overwrite declarations again := by
  intro property value hlast
  obtain ⟨old, hold, hvalue⟩ := h property value hlast
  exact ⟨old, hvalues property old hold, hvalue⟩

/-- So they are settled in a tree exactly if they are so in its outline. -/
theorem Settled.of_outline {again : List Node} (h : Settled overwrite declarations nodes)
    (houtline : outline false again = outline false nodes) :
    Settled overwrite declarations again := by
  refine h.congr fun property old hold => ?_
  rwa [← Css.valueOf?_outline false, houtline, Css.valueOf?_outline]

/-- A write that leaves alone what is declared changes nothing where declarations are settled. -/
theorem Settled.foldl_eq_self (h : Settled overwrite declarations nodes)
    (write : String → String → List Node → List Node)
    (hkeeps : ∀ property value, Css.isDeclared property nodes →
      write property value nodes = nodes) :
    declarations.foldl (fun nodes declaration => write declaration.1 declaration.2 nodes) nodes =
      nodes := by
  have hall : ∀ declaration ∈ declarations, Css.isDeclared declaration.1 nodes :=
    fun declaration hmem => h.isDeclared hmem
  -- Being settled is about all declarations at once, so the induction is on what it says of each.
  clear h
  induction declarations with
  | nil => rfl
  | cons declaration rest ih =>
    obtain ⟨hfirst, hrest⟩ := List.forall_mem_cons.mp hall
    rw [List.foldl_cons, hkeeps declaration.1 declaration.2 hfirst]
    exact ih hrest

/-! ### Writing -/

/-- **A write** gives a property a value, the one that is written if it may replace another, and
leaves the other properties alone. -/
structure IsWrite (overwrite : Bool) (write : String → String → List Node → List Node) : Prop where
  written : ∀ property value nodes,
    ∃ old, valueOf? property (write property value nodes) = some old ∧ (overwrite → old = value)
  others : ∀ {property other : String} (value : String) (nodes : List Node), other ≠ property →
    valueOf? property (write other value nodes) = valueOf? property nodes

namespace IsWrite

variable {write : String → String → List Node → List Node}

theorem valueOf?_foldl (h : IsWrite overwrite write)
    (hnone : lastValue? property declarations = none)
    (nodes : List Node) :
    valueOf? property (declarations.foldl (fun nodes declaration =>
      write declaration.1 declaration.2 nodes) nodes) = valueOf? property nodes := by
  induction declarations generalizing nodes with
  | nil => rfl
  | cons declaration rest ih =>
    rw [lastValue?, Option.or_eq_none_iff] at hnone
    rw [List.foldl_cons, ih hnone.1, h.others]
    simpa using hnone.2

/-- **After writing, declarations are settled.** -/
theorem settled (h : IsWrite overwrite write) (declarations : List (String × String))
    (nodes : List Node) :
    Settled overwrite declarations (declarations.foldl (fun nodes declaration =>
      write declaration.1 declaration.2 nodes) nodes) := by
  induction declarations generalizing nodes with
  | nil =>
    rintro property value ⟨⟩
  | cons declaration rest ih =>
    intro property value hlast
    rw [lastValue?] at hlast
    cases hrest : lastValue? property rest with
    | some last =>
      rw [hrest, Option.some_or] at hlast
      exact ih _ property value (hrest.trans hlast)
    | none =>
      rw [hrest, Option.none_or] at hlast
      split_ifs at hlast with heq
      obtain ⟨rfl, rfl⟩ := And.intro heq (Option.some.inj hlast)
      rw [List.foldl_cons, h.valueOf?_foldl hrest]
      exact h.written _ _ nodes

end IsWrite

/-! ### Assignments -/

theorem valueOf?_declare_of_ne (h : other ≠ property) (value : String) (nodes : List Node) :
    valueOf? property (Css.declare other value nodes) = valueOf? property nodes := by
  induction nodes with
  | nil => simp [Css.declare, Css.valueOf?_declaration, h]
  | cons node rest ih =>
    by_cases hnode : node.declares other
    · have hnot : ¬node.declares property := by
        cases node <;> simp_all [Node.declares, Node.declaration?]
      rw [Css.declare_cons_of_declares hnode, Css.valueOf?_cons_of_not_declares hnot,
        Css.valueOf?_declaration, if_neg h]
    · rw [Css.declare_cons_of_not_declares hnode]
      by_cases hdeclares : node.declares property
      · cases node with
        | declaration name old layout =>
          simp [Css.valueOf?_declaration, ih]
        | _ => simp [Node.declares, Node.declaration?] at hdeclares
      · rw [Css.valueOf?_cons_of_not_declares hdeclares,
          Css.valueOf?_cons_of_not_declares hdeclares, ih]

theorem isWrite_assign (overwrite : Bool) : IsWrite overwrite (Css.assign overwrite) where
  written property value nodes := by
    unfold Css.assign
    split_ifs with h
    · exact ⟨value, Css.valueOf?_declare property value nodes, fun _ => rfl⟩
    · simp only [Bool.or_eq_true, Bool.not_eq_true', not_or, Bool.not_eq_true,
        Bool.not_eq_false] at h
      rw [← Css.isSome_valueOf?] at h
      obtain ⟨old, hold⟩ := Option.isSome_iff_exists.mp h.2
      exact ⟨old, hold, by simp [h.1]⟩
  others value nodes hne := by
    unfold Css.assign
    split_ifs
    · exact valueOf?_declare_of_ne hne value nodes
    · rfl

theorem settled_assignAll (overwrite : Bool) (declarations : List (String × String))
    (nodes : List Node) : Settled overwrite declarations (assignAll overwrite declarations nodes) :=
  (isWrite_assign overwrite).settled declarations nodes

/-- Assignments that may replace are edits. -/
theorem assignAll_true (declarations : List (String × String)) (nodes : List Node) :
    assignAll true declarations nodes =
      makeAll (declarations.map fun declaration => .declare [] declaration.1 declaration.2)
        nodes := by
  rw [makeAll, List.foldl_map]
  rfl

theorem lastWritten?_map (declarations : List (String × String)) (places : List Css.Place)
    (property : String) :
    Merge.lastWritten? places property (declarations.map fun declaration =>
        .declare [] declaration.1 declaration.2) =
      if places = [] then lastValue? property declarations else none := by
  induction declarations with
  | nil => simp [Merge.lastWritten?, lastValue?]
  | cons declaration rest ih =>
    rw [List.map_cons, Merge.lastWritten?, ih, lastValue?, Edit.written?]
    by_cases hplaces : places = []
    · simp [hplaces, Merge.Path.places]
    · simp [hplaces, Merge.Path.places, Ne.symm hplaces]

/-- **Assigning what is settled changes nothing.** -/
theorem assignAll_eq_self (h : Settled overwrite declarations nodes) :
    assignAll overwrite declarations nodes = nodes := by
  cases overwrite with
  | true =>
    -- One property may be assigned several values, as it may be by edits.
    rw [assignAll_true]
    refine Merge.makeAll_eq_self (fun edit hedit => ?_) fun places property value hlast => ?_
    · obtain ⟨declaration, hmem, rfl⟩ := List.mem_map.mp hedit
      have hsome := h.isDeclared hmem
      rwa [← Css.isSome_valueOf?] at hsome
    · rw [lastWritten?_map] at hlast
      split_ifs at hlast with hplaces
      obtain ⟨old, hold, hvalue⟩ := h property value hlast
      subst hplaces
      rw [← hvalue rfl]
      exact hold
  | false =>
    refine h.foldl_eq_self (Css.assign false) fun property value hdeclared => ?_
    simp [Css.assign, hdeclared]

/-! ### Insertions -/

theorem valueOf?_append (property : String) (xs ys : List Node) :
    valueOf? property (xs ++ ys) = (valueOf? property xs).or (valueOf? property ys) :=
  List.findSome?_append

/-- An insertion is in the middle of the others, or nothing. -/
theorem exists_insertProperty (h : ¬isDeclared property nodes) (value : String) :
    ∃ front back, nodes = front ++ back ∧
      Css.insertProperty property value nodes =
        front ++ .declaration property value {} :: back := by
  rw [Css.insertProperty, if_neg h]
  exact ⟨_, _, (List.take_append_drop _ nodes).symm, rfl⟩

theorem isWrite_insertProperty : IsWrite false Css.insertProperty where
  written property value nodes := by
    by_cases h : isDeclared property nodes
    · rw [Css.insertProperty, if_pos h]
      rw [← Css.isSome_valueOf?] at h
      obtain ⟨old, hold⟩ := Option.isSome_iff_exists.mp h
      exact ⟨old, hold, by simp⟩
    · obtain ⟨front, back, rfl, hinsert⟩ := exists_insertProperty h value
      rw [hinsert, valueOf?_append, Css.valueOf?_declaration, if_pos rfl]
      cases hfront : valueOf? property front with
      | none => exact ⟨value, rfl, fun _ => rfl⟩
      | some old => exact ⟨old, rfl, by simp⟩
  others {property other} value nodes hne := by
    by_cases h : isDeclared other nodes
    · rw [Css.insertProperty, if_pos h]
    · obtain ⟨front, back, rfl, hinsert⟩ := exists_insertProperty h value
      rw [hinsert, valueOf?_append, valueOf?_append, Css.valueOf?_declaration, if_neg hne]

theorem settled_insertAll (declarations : List (String × String)) (nodes : List Node) :
    Settled false declarations (insertAll declarations nodes) :=
  isWrite_insertProperty.settled declarations nodes

/-- An insertion replaces nothing. -/
theorem valueOf?_insertProperty {old : String} (h : valueOf? property nodes = some old)
    (other value : String) :
    valueOf? property (Css.insertProperty other value nodes) = some old := by
  by_cases hne : other = property
  · have hdeclared : isDeclared other nodes := by
      rw [hne, ← Css.isSome_valueOf?, h]
      rfl
    rwa [Css.insertProperty, if_pos hdeclared]
  · rwa [isWrite_insertProperty.others value nodes hne]

theorem Settled.insertAll (h : Settled overwrite declarations nodes)
    (more : List (String × String)) :
    Settled overwrite declarations (Theme.insertAll more nodes) := by
  refine h.congr fun property old hold => ?_
  induction more generalizing nodes with
  | nil => exact hold
  | cons declaration rest ih =>
    have hfirst := valueOf?_insertProperty hold declaration.1 declaration.2
    exact ih (h.congr fun _ _ h => valueOf?_insertProperty h _ _) hfirst

/-- **Inserting what is settled changes nothing.** -/
theorem insertAll_eq_self (h : Settled overwrite declarations nodes) :
    insertAll declarations nodes = nodes := by
  refine h.foldl_eq_self Css.insertProperty fun property value hdeclared => ?_
  rw [Css.insertProperty, if_pos hdeclared]

/-! ### Entries of the theme -/

/-- The declarations of entries of the theme. -/
def themeDeclarations (entries : Entries String) : List (String × String) :=
  entries.map fun (name, value) => (customProperty name, value)

/-- One entry, by its property. -/
def writeEntry (overwrite : Bool) (property value : String) (nodes : List Node) : List Node :=
  if isDeclared property nodes then Css.assign overwrite property value nodes
  else Css.insertProperty property value nodes

theorem foldl_writeThemeEntry (overwrite : Bool) (entries : Entries String) (nodes : List Node) :
    entries.foldl (writeThemeEntry overwrite) nodes =
      (themeDeclarations entries).foldl (fun nodes declaration =>
        writeEntry overwrite declaration.1 declaration.2 nodes) nodes := by
  rw [themeDeclarations, List.foldl_map]
  rfl

theorem isWrite_writeEntry (overwrite : Bool) : IsWrite overwrite (writeEntry overwrite) where
  written property value nodes := by
    unfold writeEntry
    split_ifs with h
    · exact (isWrite_assign overwrite).written property value nodes
    · obtain ⟨front, back, rfl, hinsert⟩ := exists_insertProperty h value
      have hfront : valueOf? property front = none := by
        rw [← Css.isSome_valueOf?, valueOf?_append] at h
        simpa using (Option.or_eq_none_iff.mp (Option.not_isSome_iff_eq_none.mp h)).1
      refine ⟨value, ?_, fun _ => rfl⟩
      rw [hinsert, valueOf?_append, hfront, Option.none_or, Css.valueOf?_declaration, if_pos rfl]
  others value nodes hne := by
    unfold writeEntry
    split_ifs
    · exact (isWrite_assign overwrite).others value nodes hne
    · exact isWrite_insertProperty.others value nodes hne

theorem settled_writeThemeEntry (overwrite : Bool) (entries : Entries String) (nodes : List Node) :
    Settled overwrite (themeDeclarations entries)
      (entries.foldl (writeThemeEntry overwrite) nodes) := by
  rw [foldl_writeThemeEntry]
  exact (isWrite_writeEntry overwrite).settled _ nodes

/-- What is declared stays so under assignments. -/
theorem isDeclared_assign (h : isDeclared property nodes) (overwrite : Bool)
    (other value : String) :
    isDeclared property (Css.assign overwrite other value nodes) := by
  rw [← Css.isSome_valueOf?] at h ⊢
  by_cases hne : other = property
  · subst hne
    obtain ⟨old, hold, -⟩ := (isWrite_assign overwrite).written other value nodes
    rw [hold]
    rfl
  · rwa [(isWrite_assign overwrite).others value nodes hne]

/-- Where all properties are declared, entries are assigned. -/
theorem foldl_writeEntry (h : ∀ declaration ∈ declarations, isDeclared declaration.1 nodes) :
    declarations.foldl (fun nodes declaration =>
        writeEntry overwrite declaration.1 declaration.2 nodes) nodes =
      assignAll overwrite declarations nodes := by
  induction declarations generalizing nodes with
  | nil => rfl
  | cons declaration rest ih =>
    obtain ⟨hfirst, hrest⟩ := List.forall_mem_cons.mp h
    rw [List.foldl_cons, writeEntry, if_pos hfirst]
    exact ih fun other hother => isDeclared_assign (hrest other hother) _ _ _

/-- **Writing entries that are settled changes nothing.** -/
theorem writeThemeEntry_eq_self {entries : Entries String}
    (h : Settled overwrite (themeDeclarations entries) nodes) :
    entries.foldl (writeThemeEntry overwrite) nodes = nodes := by
  rw [foldl_writeThemeEntry, foldl_writeEntry fun declaration hmem => h.isDeclared hmem]
  exact assignAll_eq_self h

end Restyle.Theme
