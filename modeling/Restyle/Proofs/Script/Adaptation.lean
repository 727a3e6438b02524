import Restyle.Proofs.Script.Respelling

/-!
# What adapting a script leaves alone

Adapting a script replaces the spelling of some literals and nothing else: the outcome is the
source respelled (`Restyle.Script.adapt_eq_respell`), as long as the literals are apart and none
that is replaced is collected twice.

A literal whose classes stay what they are keeps its spelling (`Restyle.Script.adapt_keeps`),
provided that its value has no blanks at its ends: a value is trimmed before it is compared
with the one that was there. What counts is that *each* transformation leaves the classes of
the value as they are. A class may go through two changes and come out as it was, and then the
list is joined again with single spaces.
-/

namespace Restyle.Class

open Restyle.Project (Settings)

variable {settings : Settings} {palette : Option Palette} {text : String}

/-! ### Texts whose classes stay -/

/-- No transformation of a project rewrites a class of a text. -/
structure Keeps (settings : Settings) (palette : Option Palette) (text : String) : Prop where
  colors : classSet (adaptColors settings palette text) = classSet text
  directions : classSet (adaptDirections settings text) = classSet text
  mark : classSet (adaptPrefix settings text) = classSet text

theorem keepLayout_eq_self {transformed : String}
    (h : classSet (keepLayout text transformed) = classSet text) :
    keepLayout text transformed = text := by
  unfold keepLayout at h ⊢
  split_ifs with hsame
  · rfl
  · rw [if_neg hsame] at h
    exact absurd h.symm hsame

/-- **A text whose classes stay is left as it is**, spacing included. -/
theorem Keeps.adapt_eq_self (h : Keeps settings palette text) :
    adapt settings palette text = text := by
  have hcolors : adaptColors settings palette text = text := by
    have hclasses := h.colors
    unfold adaptColors at hclasses ⊢
    cases palette with
    | none => rfl
    | some palette =>
      dsimp only at hclasses ⊢
      split_ifs at hclasses ⊢
      · rfl
      · exact keepLayout_eq_self hclasses
  have hdirections : adaptDirections settings text = text := by
    have hclasses := h.directions
    unfold adaptDirections at hclasses ⊢
    split_ifs at hclasses ⊢
    · exact keepLayout_eq_self hclasses
    · rfl
  have hmark : adaptPrefix settings text = text := by
    have hclasses := h.mark
    unfold adaptPrefix at hclasses ⊢
    cases hactive : settings.activePrefix? with
    | none => rfl
    | some mark =>
      simp only [hactive] at hclasses ⊢
      split_ifs at hclasses ⊢
      · exact keepLayout_eq_self hclasses
      · rfl
  rw [adapt, hcolors, hdirections, hmark]

end Restyle.Class

namespace Restyle.Script

open Restyle.Project (Settings)

variable {scope : Scope} {settings : Settings} {palette : Option Class.Palette} {text : String}
  {program : List Node} {literals : List Literal} {source : List Char}

/-! ### Adapting a source file -/

theorem AreApart.pairwise_firsts (h : AreApart (firsts (scope.literals program)) source) :
    (firsts (scope.literals program)).Pairwise (·.stop ≤ ·.start) :=
  h.pairwise_of_sorted ((pairwise_start_mergeSort _).sublist (firsts_sublist _))

/-- The literals of a program that are replaced: those that change, where a project adapts any
class lists at all. -/
def Scope.replaced (scope : Scope) (settings : Settings) (palette : Option Class.Palette)
    (program : List Node) : List Literal :=
  if Class.hasAdaptations settings palette then
    (scope.literals program).filter (·.Changes (Class.adapt settings palette))
  else []

/-- How a project writes a literal that it takes. -/
def Literal.adapted (settings : Settings) (palette : Option Class.Palette) (source : List Char)
    (literal : Literal) : List Char :=
  if Class.hasAdaptations settings palette then
    literal.respelled (Class.adapt settings palette) source
  else literal.spelling source

/-- **An adapted source is the source respelled**, among any literals that those collected are some
of: what is collected is written as the project has it, and the other literals are as they were. -/
theorem adapt_eq_respell {dialect : Dialect}
    (hprogram : program? dialect text.toList = some program)
    (hordered : literals.Pairwise (·.stop ≤ ·.start))
    (hwithin : ∀ literal ∈ literals, literal.IsWithin text.toList)
    (hsubset : scope.literals program ⊆ literals)
    (honce : (scope.replaced settings palette program).Nodup) :
    adapt dialect scope settings palette text =
      .ok (String.ofList (respell (fun literal => if literal ∈ scope.literals program
        then literal.adapted settings palette text.toList else literal.spelling text.toList)
        text.toList 0 literals)) := by
  unfold Scope.replaced at honce
  unfold adapt Literal.adapted
  split_ifs at honce ⊢
  · rw [hprogram]
    exact congrArg (Except.ok ∘ String.ofList) (changeLiterals_eq_respell_among hordered hwithin
      (pairwise_start_mergeSort _) hsubset honce)
  · have hsource := respell_spelling hordered hwithin fun _ _ => Nat.zero_le _
    simp only [ite_self]
    rw [hsource, List.drop_zero, String.ofList_toList]

/-- **Adapting a source file only respells literals**, and a literal without blanks at its ends
whose classes stay is written as it was. A literal that is collected twice counts once, but none
that is replaced may be. -/
theorem adapt_keeps {dialect : Dialect}
    (hprogram : program? dialect text.toList = some program)
    (happart : AreApart (firsts (scope.literals program)) text.toList)
    (honce : (scope.replaced settings palette program).Nodup) :
    ∃ (out : String) (written : Literal → List Char),
      adapt dialect scope settings palette text = .ok out ∧
      out.toList = respell written text.toList 0 (firsts (scope.literals program)) ∧
      ∀ literal ∈ scope.literals program,
        Text.trim literal.value.toList = literal.value.toList →
        Class.Keeps settings palette literal.value →
        written literal = literal.spelling text.toList := by
  refine ⟨_, _, adapt_eq_respell hprogram happart.pairwise_firsts happart.within
    (fun _ => mem_firsts.mpr) honce, String.toList_ofList .., ?_⟩
  intro literal hmem htrimmed hkeeps
  have hsame : ¬literal.Changes (Class.adapt settings palette) := fun hchanges =>
    hchanges (by rw [hkeeps.adapt_eq_self, htrimmed])
  rw [if_pos hmem, Literal.adapted, Literal.respelled_of_not_changes hsame, ite_self]

/-- Literals that are collected in the order of the text stay in it. -/
theorem Scope.literals_eq (h : literalsOfAll (scope == .everywhere) program = literals)
    (hsorted : literals.Pairwise fun a b => a.start ≤ b.start) :
    scope.literals program = literals := by
  rw [Scope.literals, h]
  exact List.mergeSort_of_pairwise (by simpa using hsorted)

theorem adapt_keeps_spacing :
    let text := "export \x7b'a'\x7d from 'b'; f(' b', 'c  d', 'ml-2');"
    let literals : List Literal :=
      [⟨8, 11, "a", false⟩, ⟨18, 21, "b", false⟩, ⟨25, 29, " b", false⟩, ⟨31, 37, "c  d", false⟩,
        ⟨39, 45, "ml-2", false⟩]
    ∃ (out : String) (written : Literal → List Char),
      adapt (.ofPath "a.ts") .everywhere { rtl := true } none text = .ok out ∧
      out.toList = respell written text.toList 0 literals ∧
      written ⟨31, 37, "c  d", false⟩ = "'c  d'".toList := by
  intro text literals
  have hread : (program? (.ofPath "a.ts") text.toList).map (literalsOfAll true) =
      some (⟨8, 11, "a", false⟩ :: literals) := by
    decide +kernel
  obtain ⟨program, hprogram, hall⟩ := Option.map_eq_some_iff.mp hread
  have hliterals := @Scope.literals_eq .everywhere _ _ hall (by decide)
  have hfirsts : firsts (Scope.everywhere.literals program) = literals := by
    rw [hliterals]
    decide
  have happart : AreApart literals text.toList := by
    refine ⟨by decide, ?_, by decide⟩
    unfold Literal.IsWithin
    decide
  have honce : (Scope.everywhere.replaced { rtl := true } none program).Nodup := by
    rw [Scope.replaced, hliterals]
    decide +kernel
  have hkeeps : Class.Keeps { rtl := true } none "c  d" :=
    ⟨by decide +kernel, by decide +kernel, by decide +kernel⟩
  obtain ⟨out, written, hout, hrespell, hkept⟩ :=
    adapt_keeps hprogram (by rw [hfirsts]; exact happart) honce
  rw [hfirsts] at hrespell
  refine ⟨out, written, hout, hrespell, ?_⟩
  rw [hkept ⟨31, 37, "c  d", false⟩ (by rw [hliterals]; simp [literals]) (by decide +kernel) hkeeps]
  decide +kernel

/-- **Not every literal whose classes stay is written as it was**: one with a blank at an end is
not. -/
theorem not_forall_adapt_keeps :
    ¬∀ (dialect : Dialect) (scope : Scope) (settings : Settings) (palette : Option Class.Palette)
      (text : String) (program : List Node), program? dialect text.toList = some program →
      AreApart (scope.literals program) text.toList →
      ∃ (out : String) (written : Literal → List Char),
        adapt dialect scope settings palette text = .ok out ∧
        out.toList = respell written text.toList 0 (scope.literals program) ∧
        ∀ literal ∈ scope.literals program,
          Class.classSet (Class.adapt settings palette literal.value) =
            Class.classSet literal.value →
          written literal = literal.spelling text.toList := by
  intro h
  let text := "const a = \" b\";"
  let literals : List Literal := [⟨10, 14, " b", false⟩]
  have hread : (program? (.ofPath "a.ts") text.toList).map (literalsOfAll true) =
      some literals := by
    decide +kernel
  obtain ⟨program, hprogram, hall⟩ := Option.map_eq_some_iff.mp hread
  have hliterals : Scope.everywhere.literals program = literals :=
    Scope.literals_eq hall (by decide)
  have happart : AreApart literals text.toList := by
    refine ⟨by decide, ?_, by decide⟩
    unfold Literal.IsWithin
    decide
  obtain ⟨out, written, hout, hrespell, hkept⟩ :=
    h (.ofPath "a.ts") .everywhere { rtl := true } none text program hprogram
      (by rw [hliterals]; exact happart)
  rw [hliterals] at hrespell hkept
  have hsame := hkept ⟨10, 14, " b", false⟩ (by simp [literals]) (by decide +kernel)
  have hchanged : adapt (.ofPath "a.ts") .everywhere { rtl := true } none text =
      .ok "const a = \"b\";" := by
    decide +kernel
  obtain rfl := Except.ok.inj (hchanged.symm.trans hout)
  simp only [literals, respell, hsame] at hrespell
  exact absurd hrespell (by decide +kernel)

end Restyle.Script
