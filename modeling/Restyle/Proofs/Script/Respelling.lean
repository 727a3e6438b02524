import Mathlib.Data.List.Sort
import Mathlib.Tactic.SplitIfs
import Restyle.Proofs.Order.Distinct
import Restyle.Script.Adaptation

/-!
# Other spellings for literals

A source is **respelled** by other spellings for some of its literals: all text between two
literals is as it was (`Restyle.Script.respell`). That is what comes of changing literals in place,
as long as they are apart (`Restyle.Script.changeLiterals_eq_respell`). They are replaced from the
last one to the first one, by places in the source, and what does not change is not replaced.

A literal may be collected twice, as a quoted name of an export is. It is then replaced a second
time when its closing quote is no longer where it was, so no literal that changes may be collected
twice; what does not change may (`Restyle.Script.changeLiterals_eq_respell_among`).
-/

namespace Restyle.Script

variable {change : String → String} {collected literals : List Literal} {literal : Literal}
  {source : List Char} {written other : Literal → List Char} {keep : Literal → Bool}
  {first last : Nat}

/-! ### Stretches of a source -/

/-- How a literal is written in its source, quotes included. -/
def Literal.spelling (source : List Char) (literal : Literal) : List Char :=
  (source.take literal.stop).drop literal.start

/-- A source from a position on, with other spellings for its literals. -/
def respell (written : Literal → List Char) (source : List Char) :
    Nat → List Literal → List Char
  | position, [] => source.drop position
  | position, literal :: later =>
    (source.take literal.start).drop position ++ written literal ++
      respell written source literal.stop later

/-- A literal has its two quotes in the source. -/
def Literal.IsWithin (source : List Char) (literal : Literal) : Prop :=
  literal.start + 2 ≤ literal.stop ∧ literal.stop ≤ source.length

/-- A text can be cut at a position. -/
theorem drop_eq_append (h : first ≤ last) (hlast : last ≤ source.length) :
    source.drop first = (source.take last).drop first ++ source.drop last := by
  conv_lhs => rw [← List.take_append_drop last source]
  rw [List.drop_append_of_le_length (by simpa using ⟨h, h.trans hlast⟩)]

theorem drop_take_eq_append {middle : Nat} (h : first ≤ middle) (hmiddle : middle ≤ last)
    (hlast : last ≤ source.length) :
    (source.take last).drop first =
      (source.take middle).drop first ++ (source.take last).drop middle := by
  rw [drop_eq_append h (by simpa using ⟨hmiddle, hmiddle.trans hlast⟩), List.take_take,
    min_eq_left hmiddle]

/-- A stretch of one character. -/
theorem drop_take_singleton {c : Char} (h : source[first]? = some c) :
    (source.take (first + 1)).drop first = [c] := by
  obtain ⟨hlt, rfl⟩ := List.getElem?_eq_some_iff.mp h
  rw [List.take_succ_eq_append_getElem hlt, List.drop_append_of_le_length (by simp; omega)]
  simp

/-- In front of the first literal a respelled source is the source. -/
theorem respell_eq_append (h : first ≤ last) (hlast : last ≤ source.length)
    (hwithin : ∀ literal ∈ literals, literal.IsWithin source)
    (hlater : ∀ literal ∈ literals, last ≤ literal.start) :
    respell written source first literals =
      (source.take last).drop first ++ respell written source last literals := by
  cases literals with
  | nil => exact drop_eq_append h hlast
  | cons literal later =>
    have hstart := hlater literal List.mem_cons_self
    have hliteral := hwithin literal List.mem_cons_self
    have hbound : literal.start ≤ source.length := by
      unfold Literal.IsWithin at hliteral
      omega
    rw [respell, respell, drop_take_eq_append h hstart hbound]
    simp only [List.append_assoc]

/-- A source with the spellings that it has is the source. -/
theorem respell_spelling (hordered : literals.Pairwise (·.stop ≤ ·.start))
    (hwithin : ∀ literal ∈ literals, literal.IsWithin source)
    (hlater : ∀ literal ∈ literals, first ≤ literal.start) :
    respell (·.spelling source) source first literals = source.drop first := by
  induction literals generalizing first with
  | nil => rfl
  | cons literal later ih =>
    obtain ⟨hbehind, hordered⟩ := List.pairwise_cons.mp hordered
    obtain ⟨hliteral, hwithin⟩ := List.forall_mem_cons.mp hwithin
    unfold Literal.IsWithin at hliteral
    have hfront : source.drop first =
        (source.take literal.start).drop first ++ source.drop literal.start :=
      drop_eq_append (hlater literal List.mem_cons_self) (by omega)
    have hback : source.drop literal.start =
        (source.take literal.stop).drop literal.start ++ source.drop literal.stop :=
      drop_eq_append (by omega) hliteral.2
    rw [respell, ih hordered hwithin hbehind, Literal.spelling, hfront, hback, List.append_assoc]

/-! ### The spelling behind a change -/

/-- How a literal is written after a change. -/
def Literal.respelled (change : String → String) (source : List Char) (literal : Literal) :
    List Char :=
  match literal.changedBody? change source with
  | some body =>
    (source.take (literal.start + 1)).drop literal.start ++ body ++
      (source.take literal.stop).drop (literal.stop - 1)
  | none => literal.spelling source

/-- One more literal is replaced in a source whose later literals were. -/
theorem replaceBody_append {body rest : List Char} (h : literal.IsWithin source) :
    literal.replaceBody body (source.take literal.stop ++ rest) =
      source.take literal.start ++
        ((source.take (literal.start + 1)).drop literal.start ++ body ++
          (source.take literal.stop).drop (literal.stop - 1)) ++ rest := by
  obtain ⟨hquotes, hbound⟩ := h
  have hlength : (source.take literal.stop).length = literal.stop := by simpa using hbound
  have hfront : (source.take literal.stop ++ rest).take (literal.start + 1) =
      source.take literal.start ++ (source.take (literal.start + 1)).drop literal.start := by
    rw [List.take_append_of_le_length (by omega), List.take_take, min_eq_left (by omega)]
    exact drop_take_eq_append (Nat.zero_le _) (by omega) (by omega)
  have hback : (source.take literal.stop ++ rest).drop (literal.stop - 1) =
      (source.take literal.stop).drop (literal.stop - 1) ++ rest :=
    List.drop_append_of_le_length (by omega)
  rw [Literal.replaceBody, hfront, hback]
  simp only [List.append_assoc]

/-- **Changing literals respells them**, and changes nothing else. -/
theorem changeLiterals_eq_respell (hordered : literals.Pairwise (·.stop ≤ ·.start))
    (hwithin : ∀ literal ∈ literals, literal.IsWithin source) :
    changeLiterals change literals source =
      respell (·.respelled change source) source 0 literals := by
  induction literals with
  | nil => rfl
  | cons literal later ih =>
    obtain ⟨hbehind, hordered⟩ := List.pairwise_cons.mp hordered
    obtain ⟨hliteral, hwithin⟩ := List.forall_mem_cons.mp hwithin
    -- The later literals were replaced first, so the source is as it was up to this one.
    have hlater : changeLiterals change later source =
        source.take literal.stop ++
          respell (·.respelled change source) source literal.stop later := by
      rw [ih hordered hwithin,
        respell_eq_append (Nat.zero_le _) hliteral.2 hwithin hbehind, List.drop_zero]
    rw [changeLiterals, List.foldr_cons, ← changeLiterals, hlater, respell, List.drop_zero]
    unfold Literal.respelled
    cases hbody : literal.changedBody? change source with
    | some body => exact replaceBody_append hliteral
    | none =>
      have hquotes := hliteral.1
      have hfront : source.take literal.stop =
          source.take literal.start ++ literal.spelling source :=
        drop_take_eq_append (Nat.zero_le _) (by omega) hliteral.2
      rw [hfront]

/-- A literal stands for another text after a change, blanks at the ends apart. -/
def Literal.Changes (change : String → String) (literal : Literal) : Prop :=
  Text.trim (change literal.value).toList ≠ literal.value.toList

instance (change : String → String) (literal : Literal) : Decidable (literal.Changes change) :=
  inferInstanceAs (Decidable (_ ≠ _))

theorem Literal.changedBody?_of_not_changes (h : ¬literal.Changes change) :
    literal.changedBody? change source = none := by
  rw [changedBody?, if_pos (not_not.mp h)]

/-- Literals that do not change may be left out. -/
theorem changeLiterals_filter (change : String → String) (literals : List Literal)
    (source : List Char) :
    changeLiterals change (literals.filter (·.Changes change)) source =
      changeLiterals change literals source := by
  induction literals with
  | nil => rfl
  | cons literal later ih =>
    rw [List.filter_cons]
    split_ifs with hchanges
    · rw [changeLiterals, List.foldr_cons, ← changeLiterals, ih, changeLiterals, changeLiterals,
        List.foldr_cons]
    · have hnone : literal.changedBody? change source = none :=
        Literal.changedBody?_of_not_changes fun hne => hchanges (decide_eq_true hne)
      rw [ih, changeLiterals, changeLiterals, List.foldr_cons, hnone]

/-- A literal is written as it was if it stands for the same text. -/
theorem Literal.respelled_of_not_changes (h : ¬literal.Changes change) :
    literal.respelled change source = literal.spelling source := by
  rw [respelled, changedBody?_of_not_changes h]

/-! ### Respelling some of the literals -/

/-- Literals that are written as they were may be left out. -/
theorem respell_filter (hordered : literals.Pairwise (·.stop ≤ ·.start))
    (hwithin : ∀ literal ∈ literals, literal.IsWithin source)
    (hlater : ∀ literal ∈ literals, first ≤ literal.start)
    (hkept : ∀ literal ∈ literals, ¬keep literal → written literal = literal.spelling source) :
    respell written source first (literals.filter keep) =
      respell written source first literals := by
  induction literals generalizing first with
  | nil => rfl
  | cons literal later ih =>
    obtain ⟨hbehind, hordered⟩ := List.pairwise_cons.mp hordered
    obtain ⟨⟨hquotes, hbound⟩, hwithin⟩ := List.forall_mem_cons.mp hwithin
    obtain ⟨hstart, -⟩ := List.forall_mem_cons.mp hlater
    obtain ⟨hhere, hkept⟩ := List.forall_mem_cons.mp hkept
    have hrest := ih hordered hwithin hbehind hkept
    rw [List.filter_cons]
    split_ifs with hkeep
    · rw [respell, hrest, respell]
    · -- The literal is left out, so the text goes on as it is up to the end of the literal.
      have hlong : literal.start ≤ literal.stop := by omega
      rw [respell_eq_append (hstart.trans hlong) hbound
          (fun other hmem => hwithin other (List.mem_of_mem_filter hmem))
          (fun other hmem => hbehind other (List.mem_of_mem_filter hmem)),
        hrest, respell, hhere hkeep, drop_take_eq_append hstart hlong hbound, Literal.spelling]

/-- How literals are written elsewhere is no matter. -/
theorem respell_congr (h : ∀ literal ∈ literals, written literal = other literal) :
    respell written source first literals = respell other source first literals := by
  induction literals generalizing first with
  | nil => rfl
  | cons literal later ih =>
    obtain ⟨hhere, hlater⟩ := List.forall_mem_cons.mp h
    rw [respell, respell, hhere, ih hlater]

/-- Two lists of literals in the order of the text are one if they hold the same literals and
none twice. -/
theorem eq_of_mem_iff (hcollected : collected.Pairwise fun a b => a.start ≤ b.start)
    (hnodup : collected.Nodup) (hordered : literals.Pairwise (·.stop ≤ ·.start))
    (hwithin : ∀ literal ∈ literals, literal.IsWithin source)
    (hmem : ∀ literal, literal ∈ collected ↔ literal ∈ literals) : collected = literals := by
  have hlong (literal : Literal) (h : literal ∈ literals) : literal.start < literal.stop := by
    have hquotes := (hwithin literal h).1
    omega
  have hstarts : literals.Pairwise fun a b => a.start < b.start :=
    hordered.imp_of_mem fun {a} _ ha _ h => (hlong a ha).trans_le h
  have hdistinct : (literals.map (·.start)).Nodup :=
    List.pairwise_map.mpr (hstarts.imp Nat.ne_of_lt)
  have hperm : collected.Perm literals :=
    (List.perm_ext_iff_of_nodup hnodup hdistinct.of_map).mpr hmem
  refine hperm.eq_of_pairwise (fun a b ha hb hab hba => ?_) hcollected (hstarts.imp Nat.le_of_lt)
  exact List.inj_on_of_nodup_map hdistinct ((hmem a).mp ha) hb (le_antisymm hab hba)

/-- **Changing collected literals respells them among all literals** of a source, provided that
none that changes was collected twice. -/
theorem changeLiterals_eq_respell_among (hordered : literals.Pairwise (·.stop ≤ ·.start))
    (hwithin : ∀ literal ∈ literals, literal.IsWithin source)
    (hcollected : collected.Pairwise fun a b => a.start ≤ b.start)
    (hsubset : collected ⊆ literals)
    (honce : (collected.filter (·.Changes change)).Nodup) :
    changeLiterals change collected source =
      respell (fun literal => if literal ∈ collected then literal.respelled change source
        else literal.spelling source) source 0 literals := by
  let changed (literal : Literal) : Bool := decide (literal ∈ collected ∧ literal.Changes change)
  have hchanged : collected.filter (·.Changes change) = literals.filter changed := by
    refine eq_of_mem_iff (hcollected.filter _) honce (hordered.filter _)
      (fun literal hmem => hwithin literal (List.mem_of_mem_filter hmem)) fun literal => ?_
    simp only [List.mem_filter, changed, decide_eq_true_eq]
    exact ⟨fun ⟨hmem, hchanges⟩ => ⟨hsubset hmem, hmem, hchanges⟩, And.right⟩
  rw [← changeLiterals_filter, hchanged, changeLiterals_eq_respell (hordered.filter _)
    fun literal hmem => hwithin literal (List.mem_of_mem_filter hmem)]
  refine Eq.trans (respell_congr fun literal hmem => ?_)
    (respell_filter hordered hwithin (fun _ _ => Nat.zero_le _) fun literal _ hkept => ?_)
  · have hin : literal ∈ collected := (of_decide_eq_true (List.mem_filter.mp hmem).2).1
    rw [if_pos hin]
  · split_ifs with hin
    · -- It was collected, so it is left out for standing for the same text as before.
      have hsame : ¬literal.Changes change := fun hchanges =>
        hkept (decide_eq_true ⟨hin, hchanges⟩)
      exact Literal.respelled_of_not_changes hsame
    · rfl

/-! ### Literals that are apart -/

/-- The literals of a source are within it and apart from each other, and each is there once. -/
structure AreApart (literals : List Literal) (source : List Char) : Prop where
  nodup : literals.Nodup
  within : ∀ literal ∈ literals, literal.IsWithin source
  apart : ∀ a ∈ literals, ∀ b ∈ literals, a ≠ b → a.stop ≤ b.start ∨ b.stop ≤ a.start

theorem pairwise_start_mergeSort (literals : List Literal) :
    (literals.mergeSort fun a b => a.start ≤ b.start).Pairwise fun a b => a.start ≤ b.start := by
  let startsFirst (a b : Literal) : Bool := a.start ≤ b.start
  have htrans (a b c : Literal) : startsFirst a b → startsFirst b c → startsFirst a c := by
    simp only [startsFirst, decide_eq_true_eq]
    omega
  have htotal (a b : Literal) : startsFirst a b || startsFirst b a := by
    simp only [startsFirst, Bool.or_eq_true, decide_eq_true_eq]
    omega
  simpa [startsFirst] using List.pairwise_mergeSort htrans htotal literals

/-- Literals that start one after the other and are apart end one after the other. -/
theorem AreApart.pairwise_of_sorted (h : AreApart literals source)
    (hsorted : literals.Pairwise fun a b => a.start ≤ b.start) :
    literals.Pairwise (·.stop ≤ ·.start) := by
  have hdistinct := List.nodup_iff_pairwise_ne.mp h.nodup
  refine (hsorted.and hdistinct).imp_of_mem fun {a b} ha hb ⟨hle, hne⟩ => ?_
  have hwithin := (h.within b hb).1
  rcases h.apart a ha b hb hne with hapart | hapart
  · exact hapart
  · omega

end Restyle.Script
