import Mathlib.Data.List.Nodup
import Restyle.Order.Distinct

/-!
# Sets in order

What taking each element once does to a list that has no repetition, and to a list of two
parts: what is new in the second part follows the first.
-/

namespace Restyle

variable {α : Type} [DecidableEq α] {xs ys : List α}

theorem firsts_append (xs ys : List α) :
    firsts (xs ++ ys) = firsts xs ++ (firsts ys).filter (· ∉ xs) := by
  induction xs with
  | nil => simp [firsts]
  | cons x xs ih =>
    rw [List.cons_append, firsts, firsts, ih, List.filter_append, List.filter_filter,
      List.cons_append]
    congr 2
    exact List.filter_congr fun y _ => by simp

/-- The order stays. -/
theorem firsts_sublist (xs : List α) : (firsts xs).Sublist xs := by
  induction xs with
  | nil => exact .slnil
  | cons x xs ih => exact (List.filter_sublist.trans ih).cons_cons x

/-- A list without repetition stays. -/
theorem firsts_eq_self (h : xs.Nodup) : firsts xs = xs := by
  induction xs with
  | nil => rfl
  | cons x xs ih =>
    obtain ⟨hx, hxs⟩ := List.nodup_cons.mp h
    rw [firsts, ih hxs, List.filter_eq_self.mpr]
    intro y hy
    simpa using ne_of_mem_of_not_mem hy hx

/-- Nothing is added by a second part that has nothing new, and only by such a part. -/
theorem firsts_append_eq_left_iff (h : xs.Nodup) :
    firsts (xs ++ ys) = xs ↔ ∀ y ∈ ys, y ∈ xs := by
  rw [firsts_append, firsts_eq_self h, List.append_right_eq_self, List.filter_eq_nil_iff]
  simp

end Restyle
