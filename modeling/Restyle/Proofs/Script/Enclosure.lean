import Restyle.Proofs.Script.Adaptation

/-!
# Literals in places for class lists

A **place for class lists** is an attribute that holds one or a call of a function that puts them
together (`Restyle.Script.Node.IsClassPlace`). A literal is in such a place if one of the nodes
**around** it is one (`Restyle.Script.Occurrence.IsEnclosed`), however many other nodes are in
between. That is told from the tree alone, with all nodes around a literal at hand.

A visitor does not have them at hand. It counts the places that it has entered and not left
(`Restyle.Script.Collector`), and the count has to be behind a node what it was in front of it,
whatever is nested in there (`Restyle.Script.Collector.visit_eq`). Then what it finds are the
literals in such places, each once and in order.

A source that is adapted there only and one that is adapted everywhere are the same source
respelled: in a place for class lists in the same way, and elsewhere only in the latter
(`Restyle.Script.literals_enclosed`). What does not change may even be collected several times.
-/

namespace Restyle.Script

open Restyle.Project (Settings)

/-! ### Places for class lists -/

/-- **A place for class lists**: an attribute for them, or a call of one of the helpers that put
them together. -/
inductive Node.IsClassPlace : Node → Prop
  | attribute {name : String} {parts : List Node} : name = "className" ∨ name = "class" →
      IsClassPlace (.attribute (some name) parts)
  | call {name : String} {parts : List Node} :
      name ∈ ["cn", "clsx", "cva", "cx", "twMerge", "twJoin"] →
      IsClassPlace (.call (.identifier name) parts)

theorem Node.expectsClasses_iff {node : Node} : node.expectsClasses ↔ node.IsClassPlace := by
  constructor
  · intro h
    unfold Node.expectsClasses at h
    split at h
    · exact .attribute (by simpa [classAttributes] using h)
    · exact .call (by simpa [classHelpers] using h)
    · exact absurd h Bool.false_ne_true
  · rintro (hname | hname)
    · simpa [Node.expectsClasses, classAttributes] using hname
    · simpa [Node.expectsClasses, classHelpers] using hname

/-! ### Literals with what is around them -/

/-- A literal in a program, with the nodes that it stands in, the innermost one first. -/
structure Occurrence where
  literal : Literal
  around : List Node

/-- **A literal is in a place for class lists** if a node around it is one. -/
def Occurrence.IsEnclosed (occurrence : Occurrence) : Prop :=
  ∃ node ∈ occurrence.around, node.IsClassPlace

theorem Occurrence.isEnclosed_iff {occurrence : Occurrence} :
    occurrence.around.any Node.expectsClasses ↔ occurrence.IsEnclosed := by
  simp only [List.any_eq_true, Node.expectsClasses_iff, Occurrence.IsEnclosed]

instance : DecidablePred Occurrence.IsEnclosed :=
  fun _ => decidable_of_iff _ Occurrence.isEnclosed_iff

theorem Occurrence.decide_isEnclosed (occurrence : Occurrence) :
    decide occurrence.IsEnclosed = occurrence.around.any Node.expectsClasses := by
  rw [Bool.eq_iff_iff, decide_eq_true_iff, Occurrence.isEnclosed_iff]

mutual

/-- All literals in a node that stands in others. -/
def Node.occurrences (around : List Node) : Node → List Occurrence
  | .literal literal => [⟨literal, around⟩]
  | .identifier _ => []
  | .call callee parts =>
    callee.occurrences (.call callee parts :: around) ++
      occurrencesInAll (.call callee parts :: around) parts
  | .attribute name parts => occurrencesInAll (.attribute name parts :: around) parts
  | .group parts => occurrencesInAll (.group parts :: around) parts

/-- All literals in several nodes that stand in others. -/
def occurrencesInAll (around : List Node) : List Node → List Occurrence
  | [] => []
  | node :: nodes => node.occurrences around ++ occurrencesInAll around nodes

end

/-- The literals of those occurrences that count: all of them, or those in places for class
lists. -/
def counted (allCount : Bool) (occurrences : List Occurrence) : List Literal :=
  (occurrences.filter fun occurrence => allCount || occurrence.IsEnclosed).map (·.literal)

theorem counted_append (allCount : Bool) (xs ys : List Occurrence) :
    counted allCount (xs ++ ys) = counted allCount xs ++ counted allCount ys := by
  rw [counted, List.filter_append, List.map_append]
  rfl

mutual

/-- Whether all literals count inside a node depends on what is around it. -/
theorem Node.literals_eq_counted (allCount : Bool) (around : List Node) : (node : Node) →
    node.literals (allCount || around.any Node.expectsClasses) =
      counted allCount (node.occurrences around)
  | .literal literal => by
    cases h : allCount || around.any Node.expectsClasses <;>
      simp [Node.literals, Node.occurrences, counted, Occurrence.decide_isEnclosed, h]
  | .identifier _ => rfl
  | .call callee parts => by
    have hinside := callee.literals_eq_counted allCount (.call callee parts :: around)
    have hparts := literalsOfAll_eq_counted allCount (.call callee parts :: around) parts
    rw [List.any_cons, Bool.or_comm (Node.expectsClasses _), ← Bool.or_assoc] at hinside hparts
    rw [Node.literals, Node.occurrences, counted_append, hinside, hparts]
  | .attribute name parts => by
    have hparts := literalsOfAll_eq_counted allCount (.attribute name parts :: around) parts
    rw [List.any_cons, Bool.or_comm (Node.expectsClasses _), ← Bool.or_assoc] at hparts
    rw [Node.literals, Node.occurrences, hparts]
  | .group parts => by
    have hparts := literalsOfAll_eq_counted allCount (.group parts :: around) parts
    rwa [List.any_cons] at hparts

theorem literalsOfAll_eq_counted (allCount : Bool) (around : List Node) :
    (nodes : List Node) →
    literalsOfAll (allCount || around.any Node.expectsClasses) nodes =
      counted allCount (occurrencesInAll around nodes)
  | [] => rfl
  | node :: nodes => by
    rw [literalsOfAll, occurrencesInAll, counted_append, node.literals_eq_counted allCount around,
      literalsOfAll_eq_counted allCount around nodes]

end

/-- The literals that a scope takes are those that count, in the order of the text. -/
theorem Scope.literals_eq_counted (scope : Scope) (program : List Node) :
    scope.literals program =
      (counted (scope == .everywhere) (occurrencesInAll [] program)).mergeSort
        fun a b => a.start ≤ b.start := by
  have hall := literalsOfAll_eq_counted (scope == .everywhere) [] program
  rw [List.any_nil, Bool.or_false] at hall
  rw [Scope.literals, hall]

/-! ### A visitor that counts places -/

/-- What a visitor knows on its way through a program. -/
structure Collector where
  scope : Scope
  /-- How many places for class lists it is in. -/
  depth : Nat := 0
  found : List Literal := []

namespace Collector

/-- Whether a literal counts here. -/
def takes (collector : Collector) : Bool :=
  collector.scope == .everywhere || decide (0 < collector.depth)

/-- More literals found. -/
def add (collector : Collector) (literals : List Literal) : Collector :=
  { collector with found := collector.found ++ literals }

/-- In front of a node, which may be a place for class lists. -/
def enter (collector : Collector) (isPlace : Bool) : Collector :=
  if isPlace then { collector with depth := collector.depth + 1 } else collector

/-- Behind such a node. -/
def leave (collector : Collector) (isPlace : Bool) : Collector :=
  if isPlace then { collector with depth := collector.depth - 1 } else collector

mutual

/-- Visits a node and all that is in it. -/
def visit (collector : Collector) : Node → Collector
  | .literal literal => if collector.takes then collector.add [literal] else collector
  | .identifier _ => collector
  | .call callee parts =>
    let isPlace := (Node.call callee parts).expectsClasses
    (((collector.enter isPlace).visit callee).visitAll parts).leave isPlace
  | .attribute name parts =>
    let isPlace := (Node.attribute name parts).expectsClasses
    ((collector.enter isPlace).visitAll parts).leave isPlace
  | .group parts => collector.visitAll parts

/-- Visits several nodes. -/
def visitAll (collector : Collector) : List Node → Collector
  | [] => collector
  | node :: nodes => (collector.visit node).visitAll nodes

end

variable (collector : Collector) (isPlace : Bool)

theorem add_nil : collector.add [] = collector := by
  rw [add, List.append_nil]

theorem add_add (xs ys : List Literal) :
    (collector.add xs).add ys = collector.add (xs ++ ys) := by
  rw [add, add, add, List.append_assoc]

theorem takes_add (literals : List Literal) : (collector.add literals).takes = collector.takes :=
  rfl

theorem takes_enter : (collector.enter isPlace).takes = (collector.takes || isPlace) := by
  cases isPlace
  · rw [Bool.or_false]
    rfl
  · simp [takes, enter]

/-- What is found in between does not keep a place from being left as it was entered. -/
theorem leave_add_enter (literals : List Literal) :
    ((collector.enter isPlace).add literals).leave isPlace = collector.add literals := by
  cases isPlace <;> rfl

mutual

/-- **A visit leaves the count as it was**, and finds the literals that count. -/
theorem visit_eq (collector : Collector) : (node : Node) →
    collector.visit node = collector.add (node.literals collector.takes)
  | .literal literal => by
    rw [visit, Node.literals]
    split_ifs
    · rfl
    · exact collector.add_nil.symm
  | .identifier _ => collector.add_nil.symm
  | .call callee parts => by
    rw [visit, visit_eq _ callee, visitAll_eq _ parts, takes_add, takes_enter, add_add,
      leave_add_enter, Node.literals]
  | .attribute name parts => by
    rw [visit, visitAll_eq _ parts, takes_enter, leave_add_enter, Node.literals]
  | .group parts => visitAll_eq collector parts

theorem visitAll_eq (collector : Collector) : (nodes : List Node) →
    collector.visitAll nodes = collector.add (literalsOfAll collector.takes nodes)
  | [] => collector.add_nil.symm
  | node :: nodes => by
    rw [visitAll, visit_eq collector node, visitAll_eq _ nodes, takes_add, add_add, literalsOfAll]

end

end Collector

/-! ### The two scopes -/

theorem counted_sublist (allCount : Bool) (occurrences : List Occurrence) :
    (counted allCount occurrences).Sublist (occurrences.map (·.literal)) :=
  List.filter_sublist.map _

theorem counted_true (occurrences : List Occurrence) :
    counted true occurrences = occurrences.map (·.literal) := by
  simp [counted]

/-- Up to their order, the literals in places for class lists are some of all literals. -/
theorem Scope.subperm_literals (scope : Scope) (program : List Node) :
    (scope.literals program).Subperm (Scope.everywhere.literals program) := by
  have hcounted := counted_sublist (scope == .everywhere) (occurrencesInAll [] program)
  rw [← counted_true] at hcounted
  rw [scope.literals_eq_counted, Scope.literals_eq_counted .everywhere]
  exact ((List.mergeSort_perm _ _).subperm.trans hcounted.subperm).trans
    (List.mergeSort_perm _ _).symm.subperm

/-- What one scope writes, among all literals of a program. -/
theorem adapt_eq_respell_firsts {dialect : Dialect} {settings : Settings}
    {palette : Option Class.Palette} {text : String} {program : List Node}
    (hprogram : program? dialect text.toList = some program)
    (happart : AreApart (firsts (Scope.everywhere.literals program)) text.toList)
    (honce : (Scope.everywhere.replaced settings palette program).Nodup) (scope : Scope) :
    adapt dialect scope settings palette text =
      .ok (String.ofList (respell (fun literal => if literal ∈ scope.literals program
        then literal.adapted settings palette text.toList else literal.spelling text.toList)
        text.toList 0 (firsts (Scope.everywhere.literals program)))) := by
  have hsome := scope.subperm_literals program
  refine adapt_eq_respell hprogram happart.pairwise_firsts happart.within
    (fun literal hmem => mem_firsts.mpr (hsome.subset hmem)) ?_
  unfold Scope.replaced at honce ⊢
  split_ifs at honce ⊢
  · obtain ⟨some, hperm, hsublist⟩ := hsome.filter (·.Changes (Class.adapt settings palette))
    exact hperm.nodup_iff.mp (honce.sublist hsublist)
  · exact List.nodup_nil

/-- **Class lists are taken where they are expected and nowhere else**: a literal is taken if a
node around it is a place for class lists. A visitor that counts such places leaves each node with
the count that it had in front of it, and finds the same literals. In the outcome, the literals in
such places are written as they are if all literals are adapted, and the others as they were. -/
theorem literals_enclosed (program : List Node) :
    Scope.classes.literals program =
      (((occurrencesInAll [] program).filter (·.IsEnclosed)).map (·.literal)).mergeSort
        (fun a b => a.start ≤ b.start) ∧
    Scope.everywhere.literals program =
      ((occurrencesInAll [] program).map (·.literal)).mergeSort (fun a b => a.start ≤ b.start) ∧
    (∀ (collector : Collector) (node : Node),
      (collector.visit node).depth = collector.depth ∧
        (collector.visit node).scope = collector.scope) ∧
    (∀ scope : Scope, (Collector.visitAll { scope } program).found.mergeSort
      (fun a b => a.start ≤ b.start) = scope.literals program) ∧
    ∀ (dialect : Dialect) (settings : Settings) (palette : Option Class.Palette) (text : String),
      program? dialect text.toList = some program →
      AreApart (firsts (Scope.everywhere.literals program)) text.toList →
      (Scope.everywhere.replaced settings palette program).Nodup →
      adapt dialect .everywhere settings palette text =
        .ok (String.ofList (respell (·.adapted settings palette text.toList) text.toList 0
          (firsts (Scope.everywhere.literals program)))) ∧
      adapt dialect .classes settings palette text =
        .ok (String.ofList (respell (fun literal =>
          if literal ∈ Scope.classes.literals program
          then literal.adapted settings palette text.toList else literal.spelling text.toList)
          text.toList 0 (firsts (Scope.everywhere.literals program)))) := by
  refine ⟨Scope.classes.literals_eq_counted program, ?_, fun collector node => ?_, fun scope => ?_,
    fun dialect settings palette text hprogram happart honce => ⟨?_, ?_⟩⟩
  · rw [Scope.literals_eq_counted, ← counted_true]
    rfl
  · rw [collector.visit_eq node]
    exact ⟨rfl, rfl⟩
  · have htakes : ({ scope } : Collector).takes = (scope == .everywhere) := by
      simp [Collector.takes]
    rw [Collector.visitAll_eq, htakes]
    rfl
  · rw [adapt_eq_respell_firsts hprogram happart honce]
    exact congrArg (Except.ok ∘ String.ofList)
      (respell_congr fun literal hmem => if_pos (mem_firsts.mp hmem))
  · exact adapt_eq_respell_firsts hprogram happart honce .classes

theorem literals_enclosed_nested :
    let text := "export \x7b'a'\x7d from 'b'; f('ml-2', <p title='mr-2' " ++
      "className=\x7bcn('pl-1', x => 'pr-1')\x7d/>, 'ml-2');"
    let literals : List Literal :=
      [⟨8, 11, "a", false⟩, ⟨18, 21, "b", false⟩, ⟨25, 31, "ml-2", false⟩, ⟨42, 48, "mr-2", true⟩,
        ⟨63, 69, "pl-1", false⟩, ⟨76, 82, "pr-1", false⟩, ⟨88, 94, "ml-2", false⟩]
    let enclosed : List Literal := [⟨63, 69, "pl-1", false⟩, ⟨76, 82, "pr-1", false⟩]
    let settings : Settings := { rtl := true }
    adapt (.ofPath "a.tsx") .everywhere settings none text =
      .ok (String.ofList (respell (·.adapted settings none text.toList) text.toList 0 literals)) ∧
    adapt (.ofPath "a.tsx") .classes settings none text =
      .ok (String.ofList (respell (fun literal =>
        if literal ∈ enclosed
        then literal.adapted settings none text.toList else literal.spelling text.toList)
        text.toList 0 literals)) := by
  intro text literals enclosed settings
  have hread : (program? (.ofPath "a.tsx") text.toList).map
      (fun program => (literalsOfAll true program, literalsOfAll false program)) =
      some (⟨8, 11, "a", false⟩ :: literals, enclosed) := by
    decide +kernel
  obtain ⟨program, hprogram, hboth⟩ := Option.map_eq_some_iff.mp hread
  obtain ⟨hall, henclosed⟩ := Prod.mk.inj hboth
  have hliterals := @Scope.literals_eq .everywhere _ _ hall (by decide)
  have hplaces := @Scope.literals_eq .classes _ _ henclosed (by decide)
  have hfirsts : firsts (Scope.everywhere.literals program) = literals := by
    rw [hliterals]
    decide
  have happart : AreApart literals text.toList := by
    refine ⟨by decide, ?_, by decide⟩
    unfold Literal.IsWithin
    decide
  have honce : (Scope.everywhere.replaced settings none program).Nodup := by
    rw [Scope.replaced, hliterals]
    decide +kernel
  obtain ⟨-, -, -, -, hadapt⟩ := literals_enclosed program
  have hout := hadapt _ settings none _ hprogram (by rw [hfirsts]; exact happart) honce
  rw [hfirsts, hplaces] at hout
  exact hout

end Restyle.Script
