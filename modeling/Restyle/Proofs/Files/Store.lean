import Mathlib.Data.List.Nodup
import Mathlib.Tactic.SplitIfs
import Restyle.Files.Store

/-!
# Writing to a store

Giving a stored file another text changes what is at its path, and nothing else. This is not
quite immediate, since a path is followed through directories (`Restyle.Files.Store.resolve?`),
and what is written could get in the way of that: a path at which there is both a text and a
directory would no longer lead through the directory. In a consistent store there is one thing
at each path, and then a text that becomes another text makes and removes no directory.
-/

namespace Restyle.Files

namespace Store

variable {store other : Store} {parts : List String} {path text before : String}

/-- There is one thing at each path. -/
def IsConsistent (store : Store) : Prop := (store.map (·.1)).Nodup

/-! ### Following a path -/

/-- A path is followed by the directories alone. -/
theorem resolve?_congr (h : ∀ parts, other.isDirectory parts = store.isDirectory parts)
    (path : String) : other.resolve? path = store.resolve? path := by
  have hdirectory : other.isDirectory = store.isDirectory := funext h
  simp only [resolve?, hdirectory]

/-- A text is read where it is stored under the parts of the path. -/
theorem read_eq_ok_iff : store.read path = .ok text ↔
    ∃ parts, store.resolve? path = some parts ∧
      store.find? (·.1 == parts) = some (parts, .text text) := by
  rw [read, content?]
  cases hparts : store.resolve? path with
  | none => simp
  | some parts =>
    cases hfind : store.find? (·.1 == parts) with
    | none => by_cases hdirectory : store.isDirectory parts <;> simp [hfind, hdirectory]
    | some entry =>
      obtain rfl : entry.1 = parts := by simpa using List.find?_some hfind
      obtain ⟨parts, content⟩ := entry
      cases content <;> simp [hfind]

/-- A text is read exactly where there is one. -/
theorem content?_eq_text_iff : store.content? path = some (.text text) ↔
    store.read path = .ok text := by
  rw [read]
  cases store.content? path with
  | none => simp
  | some content => cases content <;> simp

/-! ### What is written -/

/-- An entry with another text, if it is the one at some parts. -/
def retext (parts : List String) (text : String) (entry : List String × Content) :
    List String × Content :=
  if entry.1 == parts then (parts, .text text) else entry

theorem retext_fst (parts : List String) (text : String) (entry : List String × Content) :
    (retext parts text entry).1 = entry.1 := by
  unfold retext
  split_ifs with h
  · exact (beq_iff_eq.mp h).symm
  · rfl

theorem write_eq_map (hparts : store.resolve? path = some parts)
    (hthere : store.find? (·.1 == parts) = some (parts, .text before)) (text : String) :
    store.write path text = store.map (retext parts text) := by
  have hany : store.any (·.1 == parts) :=
    List.any_eq_true.mpr ⟨_, List.mem_of_find?_eq_some hthere, by simp⟩
  simp only [write, hparts, hany, if_true]
  rfl

/-- The entries keep their places. -/
theorem find?_map_retext (parts parts' : List String) (text : String) :
    (store.map (retext parts text)).find? (·.1 == parts') =
      (store.find? (·.1 == parts')).map (retext parts text) := by
  rw [List.find?_map]
  congr 2
  funext entry
  exact congrArg (· == parts') (retext_fst parts text entry)

/-- In a consistent store, a text that becomes another one is a directory neither before
nor after. -/
theorem isDirectory_map_retext (hstore : store.IsConsistent)
    (hthere : store.find? (·.1 == parts) = some (parts, .text before)) (text : String)
    (parts' : List String) :
    isDirectory (store.map (retext parts text)) parts' = store.isDirectory parts' := by
  have hmem := List.mem_of_find?_eq_some hthere
  have hkind (entry : List String × Content) (hentry : entry ∈ store) :
      (retext parts text entry).2 = .directory ↔ entry.2 = .directory := by
    unfold retext
    split_ifs with h
    · have hsame : entry = (parts, .text before) :=
        List.inj_on_of_nodup_map hstore hentry hmem (beq_iff_eq.mp h)
      simp [hsame]
    · rfl
  rw [Bool.eq_iff_iff]
  simp only [isDirectory, List.any_map, Bool.or_eq_true, List.any_eq_true, Function.comp_apply,
    Bool.and_eq_true, beq_iff_eq, retext_fst]
  refine or_congr_right (exists_congr fun entry => and_congr_right fun hentry => ?_)
  rw [hkind entry hentry]

variable (hstore : store.IsConsistent) (hread : store.read path = .ok before)
include hstore hread

/-- **What was written is read.** -/
theorem read_write (text : String) : (store.write path text).read path = .ok text := by
  obtain ⟨parts, hparts, hthere⟩ := read_eq_ok_iff.mp hread
  rw [write_eq_map hparts hthere, read_eq_ok_iff]
  refine ⟨parts, ?_, ?_⟩
  · rw [resolve?_congr (isDirectory_map_retext hstore hthere text), hparts]
  · rw [find?_map_retext, hthere]
    simp [retext]

/-- **Writing changes nothing anywhere else.** -/
theorem content?_write_of_ne {elsewhere : String}
    (hne : store.resolve? elsewhere ≠ store.resolve? path) (text : String) :
    (store.write path text).content? elsewhere = store.content? elsewhere := by
  obtain ⟨parts, hparts, hthere⟩ := read_eq_ok_iff.mp hread
  have hdirectory := isDirectory_map_retext hstore hthere text
  rw [write_eq_map hparts hthere, content?, content?, resolve?_congr hdirectory]
  cases hother : store.resolve? elsewhere with
  | none => rfl
  | some parts' =>
    have hne : parts' ≠ parts := by
      rintro rfl
      exact hne (hother.trans hparts.symm)
    simp only [Option.bind_eq_bind, Option.bind_some, find?_map_retext, hdirectory]
    cases hfind : store.find? (·.1 == parts') with
    | none => rfl
    | some entry =>
      obtain rfl : entry.1 = parts' := by simpa using List.find?_some hfind
      simp [retext, hne]

end Store

end Restyle.Files
