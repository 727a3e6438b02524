/-!
# First occurrences

A class list is a set that remembers the order in which its classes were first named.
`Restyle.firsts` takes a list to that set: each element once, where it occurred first.
-/

namespace Restyle

variable {α : Type} [DecidableEq α]

/-- Every element of a list once, at the place of its first occurrence. -/
def firsts : List α → List α
  | [] => []
  | x :: xs => x :: (firsts xs).filter (· ≠ x)

/-- Nothing is added and nothing is lost. -/
@[simp] theorem mem_firsts {x : α} {xs : List α} : x ∈ firsts xs ↔ x ∈ xs := by
  induction xs with
  | nil => simp [firsts]
  | cons y ys ih =>
    by_cases h : x = y <;> simp [firsts, h, ih]

/-- No element is left twice. -/
theorem nodup_firsts (xs : List α) : (firsts xs).Nodup := by
  induction xs with
  | nil => simp [firsts]
  | cons y ys ih => exact List.nodup_cons.2 ⟨by simp, ih.filter _⟩

end Restyle
