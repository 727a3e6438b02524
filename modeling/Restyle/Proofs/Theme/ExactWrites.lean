import Restyle.Proofs.Css.Blindness
import Restyle.Proofs.Theme.Settled

/-!
# Exact writes

Variables are written by assignments, by insertions and, for the entries of the theme, by the one
or the other. Each of them is exact (`Restyle.Theme.IsExactWrite`): it says which value every
property has afterwards, and it declares no property a second time. So a list of writes is exact
as well. A property has the last value that is written to it, where values are replaced; else it
has the value that it had, or the first one (`Restyle.Theme.writtenValue?`).
-/

namespace Restyle.Theme

open Restyle.Css (Node isDeclared valueOf?)

variable {overwrite : Bool} {declarations : List (String × String)} {nodes : List Node}
  {write : String → String → List Node → List Node}

/-! ### Lists of writes -/

/-- The number of declarations of a property. -/
def occurrences (property : String) (nodes : List Node) : Nat :=
  nodes.countP (Node.declares property)

/-- The value that a property has after some declarations were written, `old` being the one that
it had: the last one that is written if it replaces others, else the first there is. -/
def writtenValue? (overwrite : Bool) (property : String) (declarations : List (String × String))
    (old : Option String) : Option String :=
  if overwrite then (lastValue? property declarations).or old
  else old.or (declarations.lookup property)

/-- **A write is exact** if it is known which values properties have afterwards, and it declares
a property at most once more, where it is not declared. -/
structure IsExactWrite (overwrite : Bool) (write : String → String → List Node → List Node) :
    Prop where
  value : ∀ property other value nodes, valueOf? property (write other value nodes) =
    writtenValue? overwrite property [(other, value)] (valueOf? property nodes)
  count : ∀ property other value nodes, occurrences property (write other value nodes) ≤
    max 1 (occurrences property nodes)

/-- One more declaration in front. -/
theorem writtenValue?_cons (overwrite : Bool) (property : String) (declaration : String × String)
    (rest : List (String × String)) (old : Option String) :
    writtenValue? overwrite property (declaration :: rest) old =
      writtenValue? overwrite property rest
        (writtenValue? overwrite property [declaration] old) := by
  obtain ⟨other, value⟩ := declaration
  cases overwrite with
  | true => simp [writtenValue?, lastValue?, Option.or_assoc]
  | false =>
    by_cases hsame : property = other
    · simp [writtenValue?, hsame]
    · simp [writtenValue?, List.lookup_cons, beq_false_of_ne hsame]

/-- **A list of exact writes** gives each property the value that all of them write. -/
theorem IsExactWrite.valueOf?_foldl (h : IsExactWrite overwrite write) (property : String)
    (declarations : List (String × String)) (nodes : List Node) :
    valueOf? property (declarations.foldl (fun nodes declaration =>
        write declaration.1 declaration.2 nodes) nodes) =
      writtenValue? overwrite property declarations (valueOf? property nodes) := by
  induction declarations generalizing nodes with
  | nil => cases overwrite <;> simp [writtenValue?, lastValue?]
  | cons declaration rest ih =>
    rw [List.foldl_cons, ih, h.value, writtenValue?_cons overwrite property declaration rest]

/-- **It declares nothing twice.** -/
theorem IsExactWrite.occurrences_foldl (h : IsExactWrite overwrite write) (property : String)
    (declarations : List (String × String)) (nodes : List Node) :
    occurrences property (declarations.foldl (fun nodes declaration =>
        write declaration.1 declaration.2 nodes) nodes) ≤ max 1 (occurrences property nodes) := by
  induction declarations generalizing nodes with
  | nil => exact Nat.le_max_right 1 _
  | cons declaration rest ih =>
    have hfirst := h.count property declaration.1 declaration.2 nodes
    have hrest := ih (write declaration.1 declaration.2 nodes)
    rw [List.foldl_cons]
    omega

/-- A property that is written has a value afterwards. -/
theorem isSome_writtenValue? {property value : String} (h : (property, value) ∈ declarations)
    (overwrite : Bool) (old : Option String) :
    (writtenValue? overwrite property declarations old).isSome := by
  have hlast : (lastValue? property declarations).isSome := isSome_lastValue? h
  have hfirst : (declarations.lookup property).isSome := by
    rw [Option.isSome_iff_ne_none, ne_eq, List.lookup_eq_none_iff]
    exact fun hnone => absurd (hnone _ h) (by simp)
  cases overwrite <;> simp [writtenValue?, hlast, hfirst]

/-- The last value is the value of a declaration with no other one of its property behind it. -/
theorem exists_of_lastValue? {property value : String}
    (h : lastValue? property declarations = some value) :
    ∃ front back, declarations = front ++ (property, value) :: back ∧
      ∀ other ∈ back, other.1 ≠ property := by
  induction declarations with
  | nil => cases h
  | cons first rest ih =>
    rw [lastValue?] at h
    rcases Option.or_eq_some_iff.mp h with h | ⟨hnone, h⟩
    · obtain ⟨front, back, rfl, hback⟩ := ih h
      exact ⟨first :: front, back, rfl, hback⟩
    · split_ifs at h with hsame
      obtain ⟨rfl, rfl⟩ := And.intro hsame (Option.some.inj h)
      refine ⟨[], rest, rfl, fun other hother hother' => ?_⟩
      have hsome := isSome_lastValue? hother
      rw [hother', hnone] at hsome
      cases hsome

theorem mem_of_lastValue? {property value : String}
    (h : lastValue? property declarations = some value) : (property, value) ∈ declarations := by
  obtain ⟨front, back, rfl, -⟩ := exists_of_lastValue? h
  simp

theorem mem_of_lookup {property value : String} (h : declarations.lookup property = some value) :
    (property, value) ∈ declarations := by
  obtain ⟨front, back, rfl, -⟩ := List.lookup_eq_some_iff.mp h
  simp

/-- It has the value that it had, or one that is written. -/
theorem mem_of_writtenValue? {property value : String} {old : Option String}
    (h : writtenValue? overwrite property declarations old = some value) :
    old = some value ∨ (property, value) ∈ declarations := by
  unfold writtenValue? at h
  split_ifs at h
  · rcases Option.or_eq_some_iff.mp h with h | ⟨-, h⟩
    · exact .inr (mem_of_lastValue? h)
    · exact .inl h
  · rcases Option.or_eq_some_iff.mp h with h | ⟨-, h⟩
    · exact .inl h
    · exact .inr (mem_of_lookup h)

/-! ### Occurrences -/

theorem isDeclared_iff_occurrences (property : String) (nodes : List Node) :
    isDeclared property nodes ↔ 0 < occurrences property nodes := by
  rw [isDeclared, List.any_eq_true, occurrences, List.countP_pos_iff]

/-- A property that is not declared is declared once more. -/
theorem occurrences_insert_le {other value : String} {front back : List Node}
    (h : ¬isDeclared other (front ++ back)) (property : String) :
    occurrences property (front ++ .declaration other value {} :: back) ≤
      max 1 (occurrences property (front ++ back)) := by
  rw [isDeclared_iff_occurrences] at h
  by_cases hsame : other = property
  · subst hsame
    simp only [occurrences, List.countP_append, List.countP_cons] at h ⊢
    split_ifs <;> omega
  · simp only [occurrences, List.countP_append, List.countP_cons, Css.declares_declaration, hsame,
      beq_iff_eq, if_false]
    omega

/-- A value that is replaced adds no declaration. -/
theorem occurrences_declare {other : String} (h : isDeclared other nodes)
    (value property : String) :
    occurrences property (Css.declare other value nodes) = occurrences property nodes := by
  have hsame : (Css.declare other value nodes).map (Node.declares property) =
      nodes.map (Node.declares property) := Css.map_declare (fun _ _ => rfl) h
  have hcount := congrArg (List.countP id) hsame
  simpa only [occurrences, List.countP_map, Function.id_comp] using hcount

/-! ### The three writes -/

/-- The value of the property that is written, and of the others. -/
theorem writtenValue?_singleton (overwrite : Bool) (property other value : String)
    (old : Option String) :
    writtenValue? overwrite property [(other, value)] old =
      if other = property then (if overwrite then some value else old.or (some value))
      else old := by
  by_cases hsame : other = property
  · cases overwrite <;> simp [writtenValue?, lastValue?, hsame]
  · have hne : (property == other) = false := beq_false_of_ne (Ne.symm hsame)
    cases overwrite <;> simp [writtenValue?, lastValue?, List.lookup_cons, hsame, hne]

/-- A property that is declared has a value, so it needs no other. -/
theorem valueOf?_or_of_isDeclared {property : String} (h : isDeclared property nodes)
    (value : Option String) :
    (valueOf? property nodes).or value = valueOf? property nodes := by
  rw [← Css.isSome_valueOf?] at h
  obtain ⟨old, hold⟩ := Option.isSome_iff_exists.mp h
  rw [hold, Option.some_or]

theorem isExactWrite_assign (overwrite : Bool) : IsExactWrite overwrite (Css.assign overwrite) where
  value property other value nodes := by
    rw [writtenValue?_singleton]
    split_ifs with hsame hoverwrite
    · rw [hsame, hoverwrite]
      exact Css.valueOf?_declare property value nodes
    · rw [hsame, Bool.eq_false_iff.mpr hoverwrite, Css.assign_false]
      split_ifs with hdeclared
      · exact (valueOf?_or_of_isDeclared hdeclared _).symm
      · rw [valueOf?_append, Css.valueOf?_declaration, if_pos rfl]
    · exact (isWrite_assign overwrite).others value nodes hsame
  count property other value nodes := by
    unfold Css.assign
    split_ifs
    · by_cases hdeclared : isDeclared other nodes
      · rw [occurrences_declare hdeclared]
        exact Nat.le_max_right 1 _
      · rw [Css.declare_eq_append hdeclared]
        have hinsert : occurrences property (nodes ++ [.declaration other value {}]) ≤
            max 1 (occurrences property (nodes ++ [])) :=
          occurrences_insert_le (by rwa [List.append_nil]) property
        rwa [List.append_nil] at hinsert
    · exact Nat.le_max_right 1 _

theorem isExactWrite_insertProperty : IsExactWrite false Css.insertProperty where
  value property other value nodes := by
    rw [writtenValue?_singleton]
    split_ifs with hsame hfalse
    · cases hfalse
    · subst hsame
      by_cases hdeclared : isDeclared other nodes
      · rw [Css.insertProperty, if_pos hdeclared, valueOf?_or_of_isDeclared hdeclared]
      · obtain ⟨front, back, rfl, hinsert⟩ := exists_insertProperty hdeclared value
        have hnone : valueOf? other (front ++ back) = none := by
          rwa [← Css.isSome_valueOf?, Option.not_isSome_iff_eq_none] at hdeclared
        rw [hnone, hinsert, valueOf?_append, Css.valueOf?_declaration, if_pos rfl, Option.none_or]
        rw [valueOf?_append, Option.or_eq_none_iff] at hnone
        rw [hnone.1, Option.none_or]
    · exact isWrite_insertProperty.others value nodes hsame
  count property other value nodes := by
    by_cases hdeclared : isDeclared other nodes
    · rw [Css.insertProperty, if_pos hdeclared]
      exact Nat.le_max_right 1 _
    · obtain ⟨front, back, rfl, hinsert⟩ := exists_insertProperty hdeclared value
      rw [hinsert]
      exact occurrences_insert_le hdeclared property

theorem isExactWrite_writeEntry (overwrite : Bool) :
    IsExactWrite overwrite (writeEntry overwrite) where
  value property other value nodes := by
    unfold writeEntry
    split_ifs with hdeclared
    · exact (isExactWrite_assign overwrite).value property other value nodes
    · -- where the property is not declared, it has no value that could be kept
      rw [isExactWrite_insertProperty.value, writtenValue?_singleton, writtenValue?_singleton]
      by_cases hsame : other = property
      · rw [← Css.isSome_valueOf?, hsame, Option.not_isSome_iff_eq_none] at hdeclared
        simp [hsame, hdeclared]
      · rw [if_neg hsame, if_neg hsame]
  count property other value nodes := by
    unfold writeEntry
    split_ifs
    · exact (isExactWrite_assign overwrite).count property other value nodes
    · exact isExactWrite_insertProperty.count property other value nodes

/-! ### Lists of the three writes -/

theorem valueOf?_assignAll (overwrite : Bool) (property : String)
    (declarations : List (String × String)) (nodes : List Node) :
    valueOf? property (assignAll overwrite declarations nodes) =
      writtenValue? overwrite property declarations (valueOf? property nodes) :=
  (isExactWrite_assign overwrite).valueOf?_foldl property declarations nodes

theorem valueOf?_insertAll (property : String) (declarations : List (String × String))
    (nodes : List Node) :
    valueOf? property (insertAll declarations nodes) =
      writtenValue? false property declarations (valueOf? property nodes) :=
  isExactWrite_insertProperty.valueOf?_foldl property declarations nodes

theorem occurrences_insertAll (property : String) (declarations : List (String × String))
    (nodes : List Node) :
    occurrences property (insertAll declarations nodes) ≤ max 1 (occurrences property nodes) :=
  isExactWrite_insertProperty.occurrences_foldl property declarations nodes

theorem valueOf?_writeThemeEntries (overwrite : Bool) (property : String)
    (entries : Entries String) (nodes : List Node) :
    valueOf? property (entries.foldl (writeThemeEntry overwrite) nodes) =
      writtenValue? overwrite property (themeDeclarations entries) (valueOf? property nodes) := by
  rw [foldl_writeThemeEntry, (isExactWrite_writeEntry overwrite).valueOf?_foldl]

theorem occurrences_writeThemeEntries (overwrite : Bool) (property : String)
    (entries : Entries String) (nodes : List Node) :
    occurrences property (entries.foldl (writeThemeEntry overwrite) nodes) ≤
      max 1 (occurrences property nodes) := by
  rw [foldl_writeThemeEntry]
  exact (isExactWrite_writeEntry overwrite).occurrences_foldl property _ nodes

end Restyle.Theme
