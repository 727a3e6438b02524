import Mathlib.Data.List.Induction
import Mathlib.Data.List.Nodup
import Mathlib.Tactic.SplitIfs
import Restyle.Order.Entries

/-!
# Writes and what they leave behind

Entries that are written one after the other keep the first place and the last value of each
name. Whoever writes values into something else and goes by these rules as well
(`Restyle.Entries.Replaces`) may take the entries that a list of writes leaves behind instead of
the writes: the outcome is the same (`Restyle.Entries.Replaces.writeAll_ofWrites`).
-/

namespace Restyle.Entries

variable {α σ : Type} {name : String} {value : α} {entries : Entries α}

/-! ### Names -/

theorem mem_names_put {other : String} :
    other ∈ names (put name value entries) ↔ other = name ∨ other ∈ names entries := by
  induction entries with
  | nil => simp [put, names]
  | cons entry rest ih =>
    simp only [names] at ih
    rw [put]
    split_ifs with hentry
    · simp [names, hentry]
    · simp [names, ih, or_left_comm]

theorem nodup_names_put (h : (names entries).Nodup) (name : String) (value : α) :
    (names (put name value entries)).Nodup := by
  induction entries with
  | nil => exact List.nodup_singleton name
  | cons entry rest ih =>
    obtain ⟨hentry, hrest⟩ := List.nodup_cons.mp h
    rw [put]
    split_ifs with heq
    · subst heq
      exact h
    · refine List.nodup_cons.mpr ⟨fun hmem => ?_, ih hrest⟩
      exact (mem_names_put.mp hmem).elim heq hentry

/-- A name that was written twice is there once. -/
theorem nodup_names_ofWrites (writes : List (String × α)) : (names (ofWrites writes)).Nodup := by
  have hstart : (names ([] : Entries α)).Nodup := List.nodup_nil
  rw [ofWrites]
  generalize ([] : Entries α) = entries at hstart
  induction writes generalizing entries with
  | nil => exact hstart
  | cons write writes ih => exact ih _ (nodup_names_put hstart write.1 write.2)

/-! ### First entries -/

/-- **A name stands for a value** if that is the value of the first entry that has the name. -/
def Gives (entries : Entries α) (name : String) (value : α) : Prop :=
  ∃ front back, entries = front ++ (name, value) :: back ∧ ∀ other ∈ front, other.1 ≠ name

theorem find?_eq_some_iff : entries.find? name = some value ↔ entries.Gives name value := by
  induction entries with
  | nil => simp [find?, Gives]
  | cons entry rest ih =>
    rw [find?]
    split_ifs with hentry
    · constructor
      · rintro h
        obtain rfl := Option.some.inj h
        exact ⟨[], rest, by rw [← hentry]; rfl, by simp⟩
      · rintro ⟨front, back, hsplit, hfront⟩
        cases front with
        | nil => rw [(List.cons_eq_cons.mp hsplit).1]
        | cons first front =>
          obtain ⟨rfl, -⟩ := List.cons_eq_cons.mp hsplit
          exact absurd hentry (hfront _ List.mem_cons_self)
    · rw [ih]
      constructor
      · rintro ⟨front, back, rfl, hfront⟩
        exact ⟨entry :: front, back, rfl, List.forall_mem_cons.mpr ⟨hentry, hfront⟩⟩
      · rintro ⟨front, back, hsplit, hfront⟩
        cases front with
        | nil => exact absurd (congrArg Prod.fst (List.cons_eq_cons.mp hsplit).1) hentry
        | cons first front =>
          obtain ⟨-, rfl⟩ := List.cons_eq_cons.mp hsplit
          exact ⟨front, back, rfl, fun other hother =>
            hfront other (List.mem_cons_of_mem _ hother)⟩

/-- What is found is one of the entries. -/
theorem mem_of_find? (h : entries.find? name = some value) : (name, value) ∈ entries := by
  obtain ⟨front, back, rfl, -⟩ := find?_eq_some_iff.mp h
  simp

/-! ### Writing somewhere else -/

/-- **A way to write values** in which a later value replaces an earlier one under the same name,
and a name that was written before keeps its place. -/
structure Replaces (write : String → α → σ → σ) : Prop where
  same : ∀ name value old state, write name value (write name old state) = write name value state
  other : ∀ {name other} value old new state, name ≠ other →
    write name value (write other new (write name old state)) =
      write other new (write name value state)

/-- Entries written in their order. -/
def writeAll (write : String → α → σ → σ) (entries : Entries α) (state : σ) : σ :=
  entries.foldl (fun state entry => write entry.1 entry.2 state) state

section Writing

variable {write : String → α → σ → σ} (h : Replaces write)
include h

/-- A value may as well be replaced before other names are written. -/
theorem Replaces.writeAll_comm (hname : name ∉ names entries) (value old : α) (state : σ) :
    write name value (writeAll write entries (write name old state)) =
      writeAll write entries (write name value state) := by
  induction entries generalizing state with
  | nil => exact h.same name value old state
  | cons entry rest ih =>
    obtain ⟨hne, hrest⟩ := not_or.mp (mt List.mem_cons.mpr hname)
    -- behind the write of another name, the old value is still the one that was written
    have hold : write entry.1 entry.2 (write name old state) =
        write name old (write entry.1 entry.2 (write name old state)) :=
      (h.other old old entry.2 state hne).symm
    calc write name value (writeAll write rest (write entry.1 entry.2 (write name old state)))
        = write name value (writeAll write rest
            (write name old (write entry.1 entry.2 (write name old state)))) := by rw [← hold]
      _ = writeAll write rest (write name value (write entry.1 entry.2 (write name old state))) :=
        ih hrest _
      _ = writeAll write rest (write entry.1 entry.2 (write name value state)) := by
        rw [h.other value old entry.2 state hne]

/-- **One more write** does the same to what the entries are written to as to the entries. -/
theorem Replaces.writeAll_put (hnodup : (names entries).Nodup) (name : String) (value : α)
    (state : σ) :
    writeAll write (put name value entries) state =
      write name value (writeAll write entries state) := by
  induction entries generalizing state with
  | nil => rfl
  | cons entry rest ih =>
    obtain ⟨hentry, hrest⟩ := List.nodup_cons.mp hnodup
    rw [put]
    split_ifs with heq
    · subst heq
      exact (h.writeAll_comm hentry value entry.2 state).symm
    · exact ih hrest _

/-- **What a list of writes leaves behind, written in its order,** comes to the same as the
writes. -/
theorem Replaces.writeAll_ofWrites (writes : List (String × α)) (state : σ) :
    writeAll write (ofWrites writes) state = writeAll write writes state := by
  induction writes using List.reverseRecOn with
  | nil => rfl
  | append_singleton writes last ih =>
    have hput : ofWrites (writes ++ [last]) = put last.1 last.2 (ofWrites writes) := by
      simp [ofWrites]
    have hwrite : writeAll write (writes ++ [last]) state =
        write last.1 last.2 (writeAll write writes state) := by
      simp [writeAll]
    rw [hput, h.writeAll_put (nodup_names_ofWrites writes), ih, hwrite]

end Writing

end Restyle.Entries
