/-!
# Named values in order

Variables, declarations of a rule body, keyframe steps and configuration members are all
*entries*: values under names, in the order in which the names were first written.
Writing a name again keeps its place and replaces its value, so the order of a list of
entries is that of the first mentions and the values are those of the last ones.
-/

namespace Restyle

/-- Values under names, in the order of the first mention of each name. -/
abbrev Entries (α : Type) := List (String × α)

namespace Entries

variable {α : Type}

/-- Writes a value under a name: in place if the name is there, else at the end. -/
def put (name : String) (value : α) : Entries α → Entries α
  | [] => [(name, value)]
  | entry :: rest =>
    if entry.1 = name then (name, value) :: rest else entry :: put name value rest

/-- The value under a name. -/
def find? (name : String) : Entries α → Option α
  | [] => none
  | entry :: rest => if entry.1 = name then some entry.2 else find? name rest

/-- The entries that a list of writes leaves behind. -/
def ofWrites (writes : List (String × α)) : Entries α :=
  writes.foldl (fun entries write => put write.1 write.2 entries) []

/-- The names, in order. -/
def names (entries : Entries α) : List String :=
  entries.map Prod.fst

/-- A write is what its name then stands for. -/
@[simp] theorem find?_put_self (name : String) (value : α) (entries : Entries α) :
    find? name (put name value entries) = some value := by
  induction entries with
  | nil => simp [put, find?]
  | cons entry rest ih =>
    by_cases h : entry.1 = name <;> simp [put, find?, h, ih]

/-- A write leaves all other names alone. -/
theorem find?_put_of_ne {name other : String} (h : other ≠ name) (value : α)
    (entries : Entries α) : find? other (put name value entries) = find? other entries := by
  induction entries with
  | nil => simp [put, find?, h.symm]
  | cons entry rest ih =>
    by_cases hn : entry.1 = name
    · simp [put, find?, hn, h.symm]
    · simp [put, if_neg hn, find?, ih]

end Entries

end Restyle
