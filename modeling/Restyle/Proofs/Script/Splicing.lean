import Mathlib.Data.List.Perm.Basic
import Restyle.Proofs.Script.Respelling

/-!
# Literals with other bodies

Literals are changed in place, the last one first, in a text that grows and shrinks under the
edits while the places are still those of the source. What comes of it can be told without any
order, one position of the source at a time (`Restyle.Script.splice`): a character that is not
between the quotes of a changed literal stays, all quotes included, and behind the opening quote
of a changed literal is its new body.

`Restyle.Script.adapt_eq_splice` is that in-place edits come to the same, in whatever order the
literals were collected, and however long the bodies were and are.
-/

namespace Restyle.Script

open Restyle.Project (Settings)

variable {body? : Literal → Option (List Char)} {change : String → String}
  {literals later : List Literal} {literal : Literal} {source : List Char} {c : Char}
  {position first last : Nat}

/-! ### One position of the source -/

/-- A position is between the quotes of a literal. -/
def Literal.Encloses (literal : Literal) (position : Nat) : Prop :=
  literal.start < position ∧ position + 1 < literal.stop

instance (literal : Literal) (position : Nat) : Decidable (literal.Encloses position) :=
  inferInstanceAs (Decidable (_ ∧ _))

/-- What a literal puts behind a position: its new body, if it has one and starts there. -/
def Literal.putsBehind (body? : Literal → Option (List Char)) (position : Nat)
    (literal : Literal) : List Char :=
  if literal.start = position then (body? literal).getD [] else []

/-- What comes of a position: its character, unless it is between the quotes of a literal with a
new body, and the new body of the literal that starts there. -/
def spliceAt (body? : Literal → Option (List Char)) (literals : List Literal) (c : Char)
    (position : Nat) : List Char :=
  (if ∃ literal ∈ literals, (body? literal).isSome ∧ literal.Encloses position then [] else [c]) ++
    literals.flatMap (Literal.putsBehind body? position)

/-- **A source with new bodies** for some of its literals. -/
def splice (body? : Literal → Option (List Char)) (literals : List Literal)
    (source : List Char) : List Char :=
  source.zipIdx.flatMap fun (c, position) => spliceAt body? literals c position

/-- A position is at no character of a literal. -/
def Literal.Misses (literal : Literal) (position : Nat) : Prop :=
  position < literal.start ∨ literal.stop ≤ position

theorem Literal.Misses.not_encloses (h : literal.Misses position) :
    ¬literal.Encloses position := by
  unfold Literal.Misses at h
  unfold Literal.Encloses
  omega

theorem Literal.Misses.putsBehind (h : literal.Misses position)
    (hwithin : literal.IsWithin source) : literal.putsBehind body? position = [] := by
  have hne : literal.start ≠ position := by
    unfold Literal.Misses at h
    unfold Literal.IsWithin at hwithin
    omega
  rw [Literal.putsBehind, if_neg hne]

/-- Literals that miss a position may be left out. -/
theorem spliceAt_cons_of_misses (h : literal.Misses position)
    (hwithin : literal.IsWithin source) (later : List Literal) :
    spliceAt body? (literal :: later) c position = spliceAt body? later c position := by
  rw [spliceAt, spliceAt, List.flatMap_cons, h.putsBehind hwithin, List.nil_append]
  simp [h.not_encloses]

theorem spliceAt_append_of_misses (h : ∀ literal ∈ later, literal.Misses position)
    (hwithin : ∀ literal ∈ later, literal.IsWithin source) (front : List Literal) :
    spliceAt body? (front ++ later) c position = spliceAt body? front c position := by
  have hputs : later.flatMap (Literal.putsBehind body? position) = [] :=
    List.flatMap_eq_nil_iff.mpr fun literal hmem =>
      (h literal hmem).putsBehind (hwithin literal hmem)
  have hencloses : (∃ literal ∈ front ++ later, (body? literal).isSome ∧
      literal.Encloses position) ↔
      ∃ literal ∈ front, (body? literal).isSome ∧ literal.Encloses position := by
    constructor
    · rintro ⟨literal, hmem, hsome, hinside⟩
      rcases List.mem_append.mp hmem with hmem | hmem
      · exact ⟨literal, hmem, hsome, hinside⟩
      · exact absurd hinside (h literal hmem).not_encloses
    · rintro ⟨literal, hmem, hinside⟩
      exact ⟨literal, List.mem_append_left later hmem, hinside⟩
  simp only [spliceAt, List.flatMap_append, hputs, List.append_nil, hencloses]

/-! ### Stretches of the source -/

/-- A stretch of the source from a position on, spliced. -/
def spliceFrom (body? : Literal → Option (List Char)) (literals : List Literal)
    (position : Nat) (stretch : List Char) : List Char :=
  (stretch.zipIdx position).flatMap fun (c, position) => spliceAt body? literals c position

theorem spliceFrom_append (position : Nat) (front rest : List Char) :
    spliceFrom body? literals position (front ++ rest) =
      spliceFrom body? literals position front ++
        spliceFrom body? literals (position + front.length) rest := by
  rw [spliceFrom, List.zipIdx_append, List.flatMap_append]
  rfl

theorem length_drop_take (h : last ≤ source.length) :
    ((source.take last).drop first).length = last - first := by
  rw [List.length_drop, List.length_take, min_eq_left h]

/-- A stretch can be cut at a position. -/
theorem spliceFrom_cut {middle : Nat} (h : first ≤ middle) (hmiddle : middle ≤ last)
    (hlast : last ≤ source.length) :
    spliceFrom body? literals first ((source.take last).drop first) =
      spliceFrom body? literals first ((source.take middle).drop first) ++
        spliceFrom body? literals middle ((source.take last).drop middle) := by
  rw [drop_take_eq_append h hmiddle hlast, spliceFrom_append,
    length_drop_take (hmiddle.trans hlast), Nat.add_sub_cancel' h]

theorem spliceFrom_drop (h : first ≤ last) (hlast : last ≤ source.length) :
    spliceFrom body? literals first (source.drop first) =
      spliceFrom body? literals first ((source.take last).drop first) ++
        spliceFrom body? literals last (source.drop last) := by
  rw [drop_eq_append h hlast, spliceFrom_append, length_drop_take hlast, Nat.add_sub_cancel' h]

/-- A stretch on which literals do the same is spliced in the same way. -/
theorem spliceFrom_congr {others : List Literal} {stretch : List Char}
    (h : ∀ c place, position ≤ place → place < position + stretch.length →
      spliceAt body? literals c place = spliceAt body? others c place) :
    spliceFrom body? literals position stretch = spliceFrom body? others position stretch := by
  refine List.flatMap_congr ?_
  rintro ⟨c, place⟩ hmem
  obtain ⟨hfirst, hlast, -⟩ := List.mem_zipIdx hmem
  exact h c place hfirst hlast

/-- A stretch without literals stays. -/
theorem spliceFrom_nil (position : Nat) (stretch : List Char) :
    spliceFrom body? [] position stretch = stretch := by
  induction stretch generalizing position with
  | nil => rfl
  | cons c rest ih =>
    rw [spliceFrom, List.zipIdx_cons, List.flatMap_cons, ← spliceFrom, ih]
    rfl

/-! ### One literal -/

section One

variable {body : List Char}

/-- The opening quote brings the new body with it. -/
theorem spliceFrom_opening (hbody : body? literal = some body) (h : literal.IsWithin source) :
    spliceFrom body? [literal] literal.start
        ((source.take (literal.start + 1)).drop literal.start) =
      (source.take (literal.start + 1)).drop literal.start ++ body := by
  have hlt : literal.start < source.length := by
    unfold Literal.IsWithin at h
    omega
  have hfirst : ¬literal.Encloses literal.start := by simp [Literal.Encloses]
  rw [drop_take_singleton (List.getElem?_eq_getElem hlt)]
  simp [spliceFrom, spliceAt, Literal.putsBehind, hbody, hfirst]

/-- Nothing is left between the quotes. -/
theorem spliceFrom_between (hbody : body? literal = some body) (h : literal.IsWithin source) :
    spliceFrom body? [literal] (literal.start + 1)
      ((source.take (literal.stop - 1)).drop (literal.start + 1)) = [] := by
  have hbound : literal.stop - 1 ≤ source.length := (Nat.sub_le _ 1).trans h.2
  refine List.flatMap_eq_nil_iff.mpr ?_
  rintro ⟨c, place⟩ hmem
  obtain ⟨hfirst, hlast, -⟩ := List.mem_zipIdx hmem
  rw [length_drop_take hbound] at hlast
  have hinside : literal.Encloses place := by
    unfold Literal.Encloses
    omega
  have hbehind : literal.start ≠ place := by omega
  simp [spliceAt, Literal.putsBehind, hbody, hinside, hbehind]

/-- The closing quote stays. -/
theorem spliceFrom_closing (h : literal.IsWithin source) :
    spliceFrom body? [literal] (literal.stop - 1)
        ((source.take literal.stop).drop (literal.stop - 1)) =
      (source.take literal.stop).drop (literal.stop - 1) := by
  refine (spliceFrom_congr fun c place hplace _ => ?_).trans (spliceFrom_nil _ _)
  have hquotes := h.1
  have hkept : ¬literal.Encloses place := by
    unfold Literal.Encloses
    omega
  have hbehind : literal.start ≠ place := by omega
  simp [spliceAt, Literal.putsBehind, hkept, hbehind]

/-- **A literal on its own**: its quotes stay, and its new body is between them. -/
theorem spliceFrom_spelling (h : literal.IsWithin source)
    (hchanged : body? literal = literal.changedBody? change source) :
    spliceFrom body? [literal] literal.start (literal.spelling source) =
      literal.respelled change source := by
  unfold Literal.respelled
  rw [← hchanged]
  cases hbody : body? literal with
  | none =>
    have hnone : spliceFrom body? [literal] literal.start (literal.spelling source) =
        spliceFrom body? [] literal.start (literal.spelling source) :=
      spliceFrom_congr fun c place _ _ => by simp [spliceAt, Literal.putsBehind, hbody]
    rw [hnone, spliceFrom_nil]
  | some body =>
    obtain ⟨hquotes, hbound⟩ := id h
    have hopening : literal.start + 1 ≤ literal.stop - 1 := by omega
    have hclosing : literal.stop - 1 ≤ literal.stop := Nat.sub_le _ 1
    rw [Literal.spelling, spliceFrom_cut (Nat.le_succ _) (hopening.trans hclosing) hbound,
      spliceFrom_cut hopening hclosing hbound, spliceFrom_opening hbody h,
      spliceFrom_between hbody h, spliceFrom_closing h, List.nil_append]

end One

/-! ### Literals in the order of the text -/

/-- **Literals that come one after the other are respelled**, each with its new body. -/
theorem spliceFrom_eq_respell {written : Literal → List Char}
    (hordered : literals.Pairwise (·.stop ≤ ·.start))
    (hwithin : ∀ literal ∈ literals, literal.IsWithin source)
    (hwritten : ∀ literal ∈ literals, written literal =
      spliceFrom body? [literal] literal.start (literal.spelling source))
    (hlater : ∀ literal ∈ literals, first ≤ literal.start) :
    spliceFrom body? literals first (source.drop first) =
      respell written source first literals := by
  induction literals generalizing first with
  | nil => exact spliceFrom_nil first _
  | cons literal later ih =>
    obtain ⟨hbehind, hordered⟩ := List.pairwise_cons.mp hordered
    have hall := hwithin
    obtain ⟨hliteral, hwithin⟩ := List.forall_mem_cons.mp hwithin
    obtain ⟨hhere, hwritten⟩ := List.forall_mem_cons.mp hwritten
    obtain ⟨hstart, -⟩ := List.forall_mem_cons.mp hlater
    obtain ⟨hquotes, hbound⟩ := id hliteral
    have hlong : literal.start ≤ literal.stop := by omega
    -- Three stretches: up to the literal, where all literals are still to come; the literal, with
    -- the later ones behind it; and the rest, where it is past and the induction goes on.
    have hfront : spliceFrom body? (literal :: later) first
        ((source.take literal.start).drop first) = (source.take literal.start).drop first := by
      refine (spliceFrom_congr fun c place _ hplace => ?_).trans (spliceFrom_nil first _)
      rw [length_drop_take (hlong.trans hbound), Nat.add_sub_cancel' hstart] at hplace
      refine spliceAt_append_of_misses (fun other hother => .inl ?_) hall []
      rcases List.mem_cons.mp hother with rfl | hother
      · exact hplace
      · exact hplace.trans_le (hlong.trans (hbehind other hother))
    have hspelled : spliceFrom body? (literal :: later) literal.start (literal.spelling source) =
        written literal := by
      refine (spliceFrom_congr fun c place _ hplace => ?_).trans hhere.symm
      rw [Literal.spelling, length_drop_take hbound, Nat.add_sub_cancel' hlong] at hplace
      exact spliceAt_append_of_misses
        (fun other hother => .inl (hplace.trans_le (hbehind other hother))) hwithin [literal]
    have hrest : spliceFrom body? (literal :: later) literal.stop (source.drop literal.stop) =
        respell written source literal.stop later := by
      refine (spliceFrom_congr fun c place hplace _ => ?_).trans
        (ih hordered hwithin hwritten hbehind)
      exact spliceAt_cons_of_misses (.inr hplace) hliteral later
    rw [spliceFrom_drop hstart (hlong.trans hbound), spliceFrom_drop hlong hbound, hfront,
      ← Literal.spelling, hspelled, hrest, respell, List.append_assoc]

/-! ### Literals in any order -/

/-- Of literals that start at different positions, one at most puts anything behind one. -/
theorem flatMap_putsBehind_perm {others : List Literal} (hperm : literals.Perm others)
    (hstarts : literals.Pairwise (·.start ≠ ·.start)) (position : Nat) :
    literals.flatMap (Literal.putsBehind body? position) =
      others.flatMap (Literal.putsBehind body? position) := by
  induction hperm with
  | nil => rfl
  | cons literal _ ih =>
    rw [List.flatMap_cons, List.flatMap_cons, ih (List.pairwise_cons.mp hstarts).2]
  | swap a b rest =>
    -- Two literals change places, but only one of them can start here.
    have hne : b.start ≠ a.start := (List.pairwise_cons.mp hstarts).1 a List.mem_cons_self
    have hone : a.putsBehind body? position = [] ∨ b.putsBehind body? position = [] := by
      by_cases ha : a.start = position
      · exact .inr (by rw [Literal.putsBehind, if_neg (ha ▸ hne)])
      · exact .inl (by rw [Literal.putsBehind, if_neg ha])
    simp only [List.flatMap_cons]
    rcases hone with hnil | hnil <;> simp [hnil]
  | trans hfirst _ ihfirst ihlast =>
    have hsymm {a b : Literal} (h : a.start ≠ b.start) : b.start ≠ a.start := h.symm
    exact (ihfirst hstarts).trans (ihlast ((hfirst.pairwise_iff hsymm).mp hstarts))

/-- **The order of literals that are apart is no matter.** -/
theorem splice_perm {others : List Literal} (hperm : literals.Perm others)
    (h : AreApart literals source) :
    splice body? literals source = splice body? others source := by
  have hstarts : literals.Pairwise (·.start ≠ ·.start) := by
    refine h.nodup.pairwise_of_forall_ne fun a ha b hb hne hstart => ?_
    have hlong := (h.within a ha).1
    have hlong' := (h.within b hb).1
    rcases h.apart a ha b hb hne with hapart | hapart <;> omega
  refine List.flatMap_congr ?_
  rintro ⟨c, position⟩ -
  simp only [spliceAt, hperm.mem_iff, flatMap_putsBehind_perm hperm hstarts]

theorem AreApart.perm {others : List Literal} (h : AreApart literals source)
    (hperm : literals.Perm others) : AreApart others source where
  nodup := hperm.nodup_iff.mp h.nodup
  within literal hmem := h.within literal (hperm.mem_iff.mpr hmem)
  apart a ha b hb := h.apart a (hperm.mem_iff.mpr ha) b (hperm.mem_iff.mpr hb)

/-! ### In-place edits -/

/-- What a literal is to have between its quotes after a change: the changed text without blanks
at its ends, with escapes unless the literal is raw, and only if that is another text. -/
def Literal.newBody? (change : String → String) (source : List Char) (literal : Literal) :
    Option (List Char) :=
  let value := Text.trim (change literal.value).toList
  if value = literal.value.toList then none
  else if literal.isRaw then some value
  else some (encode (source.getD literal.start '"') value)

theorem Literal.changedBody?_eq_newBody? (h : literal.IsWithin source) :
    literal.changedBody? change source = literal.newBody? change source := by
  have hstart : literal.start < source.length := by
    unfold Literal.IsWithin at h
    omega
  have hquote : (source.drop literal.start).head? = some (source.getD literal.start '"') := by
    rw [List.head?_drop, List.getD_eq_getElem?_getD, List.getElem?_eq_getElem hstart,
      Option.getD_some]
  simp only [changedBody?, newBody?, hquote, Option.map_some, bodyOf]
  split_ifs <;> rfl

/-- **Editing in place, the last literal first, is splicing.** -/
theorem changeLiterals_eq_splice (h : AreApart literals source) (change : String → String) :
    changeLiterals change (literals.mergeSort fun a b => a.start ≤ b.start) source =
      splice (·.newBody? change source) literals source := by
  have hperm := (List.mergeSort_perm literals fun a b => a.start ≤ b.start).symm
  have hsorted := h.perm hperm
  have hordered := hsorted.pairwise_of_sorted (pairwise_start_mergeSort literals)
  rw [changeLiterals_eq_respell hordered hsorted.within, splice_perm hperm h]
  refine (spliceFrom_eq_respell hordered hsorted.within (fun literal hmem => ?_)
    fun _ _ => Nat.zero_le _).symm
  have hwithin := hsorted.within literal hmem
  exact (spliceFrom_spelling hwithin (Literal.changedBody?_eq_newBody? hwithin).symm).symm

/-- The literals that are collected from a source file, in the order of its tree: none where
nothing is to be adapted. -/
def collected? (dialect : Dialect) (scope : Scope) (settings : Settings)
    (palette : Option Class.Palette) (text : String) : Option (List Literal) :=
  if Class.hasAdaptations settings palette then
    (program? dialect text.toList).map (literalsOfAll (scope == .everywhere))
  else some []

/-- **Adapting a source file is splicing**: for any literals that are apart, in any order, edits
in place put their new bodies between their quotes and change nothing else, and these are the
edits that a source file gets with the literals collected from it. -/
theorem adapt_eq_splice {text : String} (h : AreApart literals text.toList) :
    (∀ change, changeLiterals change (literals.mergeSort fun a b => a.start ≤ b.start) text.toList =
      splice (·.newBody? change text.toList) literals text.toList) ∧
    ∀ dialect scope settings palette, collected? dialect scope settings palette text = some literals →
      adapt dialect scope settings palette text = .ok (String.ofList
        (splice (·.newBody? (Class.adapt settings palette) text.toList) literals text.toList)) := by
  refine ⟨changeLiterals_eq_splice h, fun dialect scope settings palette hcollected => ?_⟩
  unfold collected? at hcollected
  unfold adapt
  split_ifs at hcollected ⊢
  · obtain ⟨program, hprogram, hliterals⟩ := Option.map_eq_some_iff.mp hcollected
    rw [hprogram]
    simp only [Scope.literals, hliterals, changeLiterals_eq_splice h]
  · obtain rfl := Option.some.inj hcollected
    have hsource : splice (·.newBody? (Class.adapt settings palette) text.toList) [] text.toList =
        text.toList := spliceFrom_nil 0 text.toList
    rw [hsource, String.ofList_toList]

theorem adapt_eq_splice_lengths :
    let text := "<p className=\"pl-1 \" title='a'>\x7bcn('float-left [\\'x\\']', \"b\\n\")\x7d</p>"
    let literals : List Literal :=
      [⟨13, 20, "pl-1 ", true⟩, ⟨27, 30, "a", true⟩, ⟨35, 55, "float-left ['x']", false⟩,
        ⟨57, 62, "b\n", false⟩]
    AreApart literals text.toList ∧
      collected? (.ofPath "a.tsx") .everywhere { rtl := true } none text = some literals ∧
      adapt (.ofPath "a.tsx") .everywhere { rtl := true } none text =
        .ok "<p className=\"ps-1\" title='a'>\x7bcn('float-start [\\'x\\']', \"b\")\x7d</p>" := by
  intro text literals
  have hcollected : collected? (.ofPath "a.tsx") .everywhere { rtl := true } none text =
      some literals := by
    decide +kernel
  have happart : AreApart literals text.toList := by
    refine ⟨by decide, ?_, by decide⟩
    unfold Literal.IsWithin
    decide
  refine ⟨happart, hcollected, ?_⟩
  rw [(adapt_eq_splice happart).2 _ _ _ _ hcollected]
  decide +kernel

end Restyle.Script
