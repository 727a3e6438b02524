import Restyle.Css.Edit

/-!
# Containers by number

A container can also be named by the numbers of the children that lead to it, from the
style sheet inwards. `Restyle.Css.atNumbers` works on the nodes of such a container and
tells what came of it, or that the numbers lead nowhere. An at-rule without a body gets an
empty one where the numbers lead on through it.
-/

namespace Restyle.Css

/-- The node with an empty body if it is an at-rule without one. -/
def Node.withBody (node : Node) : Node :=
  match node with
  | .statement name params layout => .block name params [] layout
  | node => node

/-- Works on the nodes of the container that numbers lead to. Nothing comes of it where
they lead nowhere: to a number without a node, or to a node that can hold no nodes. -/
def atNumbers {α : Type} (f : List Node → List Node × α) :
    (numbers : List Nat) → List Node → List Node × Option α
  | [], nodes => let (nodes, result) := f nodes; (nodes, some result)
  | number :: numbers, nodes =>
    match nodes[number]? with
    | none => (nodes, none)
    | some node =>
      if !node.isContainer then (nodes, none)
      else
        let entered := if numbers.isEmpty then node else node.withBody
        let (children, result) := atNumbers f numbers entered.children
        (nodes.set number (entered.fill fun _ => children), result)

end Restyle.Css
