import Mathlib.Data.List.Basic
import Mathlib.Tactic.SplitIfs
import Restyle.Css.Tree

/-!
# Trees with nodes gone

What is gone from a tree can be told by **numbers** that lead to it in the tree as it was. The tree
without such nodes (`Restyle.Css.without`) has all others, in the same order and layout, with the
same in them.

Removals one after the other look for their nodes in what the earlier ones have left, where the
numbers are others. It is enough that no removal changes what another one looks for. Then each of
them can be told by the numbers in the tree as it was
(`Restyle.Css.replaceFirst_eachAt`).
-/

namespace Restyle.Css

variable {α : Type} {p : α → Bool} {act : α → List α} {h other : Nat → α → List α} {xs : List α}
  {gone : List Nat → Bool} {f : List Node → List Node}

/-! ### Each element by its number -/

/-- A list with others in place of each element, by its number. -/
def eachAt (h : Nat → α → List α) : List α → List α
  | [] => []
  | x :: xs => h 0 x ++ eachAt (fun number => h (number + 1)) xs

theorem eachAt_congr (heq : ∀ number x, xs[number]? = some x → h number x = other number x) :
    eachAt h xs = eachAt other xs := by
  induction xs generalizing h other with
  | nil => rfl
  | cons x xs ih =>
    rw [eachAt, eachAt, heq 0 x rfl, ih fun number y hy => heq (number + 1) y hy]

theorem eachAt_singleton (xs : List α) : eachAt (fun _ x => [x]) xs = xs := by
  induction xs with
  | nil => rfl
  | cons x xs ih => rw [eachAt, ih, List.singleton_append]

theorem eachAt_eq_nil_iff :
    eachAt h xs = [] ↔ ∀ number x, xs[number]? = some x → h number x = [] := by
  induction xs generalizing h with
  | nil => simp [eachAt]
  | cons x xs ih =>
    rw [eachAt, List.append_eq_nil_iff, ih]
    constructor
    · rintro ⟨hfirst, hrest⟩ number y hy
      cases number with
      | zero => exact Option.some.inj hy ▸ hfirst
      | succ number => exact hrest number y hy
    · intro hall
      exact ⟨hall 0 x rfl, fun number y hy => hall (number + 1) y hy⟩

theorem filter_eq_eachAt (p : α → Bool) (xs : List α) :
    xs.filter p = eachAt (fun _ x => if p x then [x] else []) xs := by
  induction xs with
  | nil => rfl
  | cons x xs ih =>
    rw [List.filter_cons, eachAt, ← ih]
    split_ifs <;> rfl

/-- A list with others in place of the first element of a kind. -/
def replaceFirst (p : α → Bool) (act : α → List α) : List α → List α
  | [] => []
  | x :: xs => if p x then act x ++ xs else x :: replaceFirst p act xs

theorem replaceFirst_append_of_neg {front rest : List α} (hfront : ∀ x ∈ front, ¬p x) :
    replaceFirst p act (front ++ rest) = front ++ replaceFirst p act rest := by
  induction front with
  | nil => rfl
  | cons x front ih =>
    obtain ⟨hx, hfront⟩ := List.forall_mem_cons.mp hfront
    rw [List.cons_append, replaceFirst, if_neg hx, ih hfront, List.cons_append]

/-- **What is looked for among elements that are there unless they are of another kind** is found
where it was in front of all that. -/
theorem replaceFirst_eachAt (hkind : ∀ number x, xs[number]? = some x →
      h number x = [x] ∨ ¬p x ∧ ∀ y ∈ h number x, ¬p y) :
    replaceFirst p act (eachAt h xs) =
      eachAt (fun number x => if xs.findIdx? p = some number then act x else h number x) xs := by
  induction xs generalizing h with
  | nil => rfl
  | cons x xs ih =>
    have hrest := ih fun number y hy => hkind (number + 1) y hy
    rw [eachAt, eachAt, List.findIdx?_cons]
    by_cases hx : p x
    · have hself : h 0 x = [x] := (hkind 0 x rfl).resolve_right fun hnot => hnot.1 hx
      rw [hself, List.singleton_append, replaceFirst, if_pos hx]
      simp [hx]
    · have hnone : ∀ y ∈ h 0 x, ¬p y := by
        rcases hkind 0 x rfl with hself | hnot
        · simpa [hself] using hx
        · exact hnot.2
      rw [replaceFirst_append_of_neg hnone, hrest]
      simp [hx]

/-! ### Trees -/

mutual

/-- A node without those in it that are gone. -/
def Node.without (gone : List Nat → Bool) : Node → Node
  | .rule selector nodes layout => .rule selector (withoutFrom gone 0 nodes) layout
  | .block name params nodes layout => .block name params (withoutFrom gone 0 nodes) layout
  | .statement name params layout => .statement name params layout
  | .declaration property value layout => .declaration property value layout
  | .comment text layout => .comment text layout

/-- Nodes without those that are gone, the first one having a number. -/
def withoutFrom (gone : List Nat → Bool) (number : Nat) : List Node → List Node
  | [] => []
  | node :: rest =>
    if gone [number] then withoutFrom gone (number + 1) rest
    else
      node.without (fun numbers => gone (number :: numbers)) :: withoutFrom gone (number + 1) rest

end

/-- **A tree without the nodes that are gone**, by the numbers that lead to them. -/
def without (gone : List Nat → Bool) (nodes : List Node) : List Node :=
  withoutFrom gone 0 nodes

mutual

theorem Node.without_eq_self {gone : List Nat → Bool}
    (h : ∀ number numbers, ¬gone (number :: numbers)) : (node : Node) → node.without gone = node
  | .rule selector nodes layout => by rw [Node.without, withoutFrom_eq_self h 0 nodes]
  | .block name params nodes layout => by rw [Node.without, withoutFrom_eq_self h 0 nodes]
  | .statement _ _ _ => rfl
  | .declaration _ _ _ => rfl
  | .comment _ _ => rfl

/-- Where nothing is gone, all is as it was. -/
theorem withoutFrom_eq_self {gone : List Nat → Bool}
    (h : ∀ number numbers, ¬gone (number :: numbers)) (number : Nat) :
    (nodes : List Node) → withoutFrom gone number nodes = nodes
  | [] => rfl
  | node :: rest => by
    have hnode : node.without (fun numbers => gone (number :: numbers)) = node :=
      Node.without_eq_self (fun inner numbers => h number (inner :: numbers)) node
    rw [withoutFrom, if_neg (h number []), withoutFrom_eq_self h (number + 1) rest, hnode]

end

theorem withoutFrom_eq_eachAt (gone : List Nat → Bool) (first : Nat) (nodes : List Node) :
    withoutFrom gone first nodes = eachAt (fun number node =>
      if gone [first + number] then []
      else [node.without fun numbers => gone ((first + number) :: numbers)]) nodes := by
  induction nodes generalizing first with
  | nil => rfl
  | cons node rest ih =>
    have hshift (number : Nat) : first + 1 + number = first + (number + 1) := by omega
    rw [withoutFrom, eachAt, ih]
    simp only [hshift, Nat.add_zero]
    split_ifs <;> rfl

/-- A tree without some of its nodes, each node by its number. -/
theorem without_eq_eachAt (gone : List Nat → Bool) (nodes : List Node) :
    without gone nodes = eachAt (fun number node =>
      if gone [number] then [] else [node.without fun numbers => gone (number :: numbers)])
      nodes := by
  rw [without, withoutFrom_eq_eachAt]
  simp only [Nat.zero_add]

theorem without_eq_nil_iff (gone : List Nat → Bool) (nodes : List Node) :
    without gone nodes = [] ↔ ∀ number < nodes.length, gone [number] := by
  rw [without_eq_eachAt, eachAt_eq_nil_iff]
  constructor
  · intro hall number hlt
    by_contra hleft
    simpa [hleft] using hall number _ (List.getElem?_eq_getElem hlt)
  · intro hall number node hnode
    obtain ⟨hlt, -⟩ := List.getElem?_eq_some_iff.mp hnode
    rw [if_pos (hall number hlt)]

/-! ### Containers that go when they are empty -/

/-- A node with other nodes inside, or nothing if there are none. -/
def Node.revise (f : List Node → List Node) (node : Node) : List Node :=
  if (f node.children).isEmpty then [] else [node.mapChildren f]

/-- **A container goes exactly if all that is in it does.** -/
theorem Node.revise_eq (node : Node) (h : f node.children = Css.without gone node.children) :
    node.revise f =
      if ∀ number < node.children.length, gone [number] then [] else [node.without gone] := by
  have hempty : (f node.children).isEmpty ↔ ∀ number < node.children.length, gone [number] := by
    rw [h, List.isEmpty_iff, without_eq_nil_iff]
  rw [Node.revise, if_congr hempty rfl rfl]
  split_ifs with hall
  · rfl
  · -- Something is left, so the node holds nodes.
    cases node with
    | rule selector nodes layout =>
      exact congrArg (fun nodes => [Node.rule selector nodes layout]) h
    | block name params nodes layout =>
      exact congrArg (fun nodes => [Node.block name params nodes layout]) h
    | _ => exact absurd (by simp [Node.children]) hall

end Restyle.Css
