import Restyle.Proofs.Css.Spelling
import Restyle.Proofs.Text.Search
import Restyle.Proofs.Text.Trim
import Restyle.Text.BlankLines
import Restyle.Text.Search

/-!
# Legible trees

A tree is legible if each of its texts is read as what it is where it is printed: a selector
in front of its body, a value in front of its semicolon. It takes more than that each text is
read alone, since what follows a text counts, and less than that the tree was read: nodes
that were not read are legible if they are so alone, in front of white space.

A tree is *tame* (`Restyle.Css.Node.isTame`) if its texts are neat as well: no white space at
their ends, no blank line to collapse in them, and no break marker. So finishing a text leaves
them alone.
-/

namespace Restyle.Css

open Restyle.Text (isBlank trimStart trimEnd)

/-! ### Neat texts -/

/-- The text of a break marker, behind its first slash. -/
def markerTail : List Char := ("*" ++ breakMarkerText ++ "*/").toList

/-- The text of a break marker. -/
def markerText : List Char := '/' :: markerTail

/-- A text without blanks at its ends. -/
structure IsTrimmed (cs : List Char) : Prop where
  first : ∀ c ∈ cs.head?, ¬isBlank c
  last : ∀ c ∈ cs.getLast?, ¬isBlank c

/-- A text that finishing leaves alone, and that looks for no more behind it. -/
structure IsNeat (cs : List Char) : Prop extends IsTrimmed cs where
  collapsed : Text.collapseBlankLines cs = cs
  unmarked : ¬markerTail <:+: cs
  closed : ∀ c ∈ cs.getLast?, c ≠ '\\' ∧ c ≠ '('

/-- White space alone. -/
def IsGap (cs : List Char) : Prop := ∀ c ∈ cs, isSpace c

/-- White space and stray semicolons. -/
def IsFiller (cs : List Char) : Prop := ∀ c ∈ cs, isSpace c ∨ c = ';'

theorem IsGap.append {xs ys : List Char} (hxs : IsGap xs) (hys : IsGap ys) : IsGap (xs ++ ys) :=
  List.forall_mem_append.mpr ⟨hxs, hys⟩

theorem IsGap.isFiller {cs : List Char} (h : IsGap cs) : IsFiller cs := fun c hc => .inl (h c hc)

theorem IsFiller.append {xs ys : List Char} (hxs : IsFiller xs) (hys : IsFiller ys) :
    IsFiller (xs ++ ys) :=
  List.forall_mem_append.mpr ⟨hxs, hys⟩

theorem isBlank_of_isSpace {c : Char} (h : isSpace c) : isBlank c := by
  simp only [isSpace, Bool.or_eq_true, beq_iff_eq] at h
  rcases h with (((rfl | rfl) | rfl) | rfl) | rfl <;> decide

theorem IsNeat.endsClosed {cs : List Char} (h : IsNeat cs) : EndsClosed cs :=
  fun c hc => ⟨fun hspace => h.last c hc (isBlank_of_isSpace hspace), h.closed c hc⟩

/-! ### Legible texts -/

/-- What may follow a text whose slot for white space is given: where it is not known to be
empty, there is white space. -/
structure Follows (slot : Option String) (d : Char) : Prop where
  inert : isInert d
  space : slot ≠ some "" → isSpace d

/-- The first character of a gap, or the mark behind it if the gap is empty, may follow what
stands in front of the gap. -/
theorem follows_of_gap {gap rest r : List Char} {c d : Char} (hgap : IsGap gap) (hc : isInert c)
    (hd : gap ++ c :: rest = d :: r) : Follows (some (String.ofList gap)) d := by
  cases gap with
  | nil =>
    obtain ⟨rfl, -⟩ := List.cons.inj hd
    exact ⟨hc, fun hne => absurd rfl hne⟩
  | cons e gap =>
    obtain ⟨rfl, -⟩ := List.cons.inj hd
    have hspace := hgap _ List.mem_cons_self
    exact ⟨by simp [isInert, hspace], fun _ => hspace⟩

/-- Whether all of a statement is printed: there is no white space behind the name of an
at-rule without parameters. -/
def Reader.Statement.IsPrinted (statement : Statement) : Prop :=
  ∀ name afterName params, statement.heading = .atRule name afterName params →
    params = "" → afterName = ""

/-- A selector in front of a character. -/
structure IsSelectorText (selector : String) (d : Char) : Prop where
  readable : Reader.Readable selector.toList d
  heading : (Reader.statementOf 0 (Reader.spelling selector.toList)).keyword = none

/-- The text of the name and the parameters of an at-rule. -/
def atRuleText (name params : String) (afterName : Option String) : List Char :=
  ("@" ++ name ++ (if params.isEmpty then "" else afterName.getD " " ++ params)).toList

/-- The name and the parameters of an at-rule in front of a character. -/
structure IsAtRuleText (name params : String) (afterName : Option String) (d : Char) : Prop where
  readable : Reader.Readable (atRuleText name params afterName) d
  heading : ∃ afterName',
    (Reader.statementOf 0 (Reader.spelling (atRuleText name params afterName))).heading =
      .atRule name afterName' params
  printed : (Reader.statementOf 0 (Reader.spelling (atRuleText name params afterName))).IsPrinted

/-- A property, with the colon behind it and the white space around that. -/
def IsPropertyText (property between : String) : Prop :=
  IsTrimmed property.toList ∧
    ∃ front gap gap', between.toList = gap ++ ':' :: gap' ∧ IsGap gap ∧ IsGap gap' ∧
    Cuts front (property.toList ++ gap) ':' ∧
    front.foldlM Reader.advance [] = some [] ∧ (Reader.statementOf 0 front).colon = none ∧
    ∀ token ∈ front.head?, Reader.beginsStatement token.kind ∧ token.kind ≠ .atKeyword

/-- A value in front of a character. -/
def IsValueText (value : String) (d : Char) : Prop :=
  IsTrimmed value.toList ∧ (isSpace d → EndsClosed value.toList) ∧
    ∃ toks, Cuts toks value.toList d ∧ toks.foldlM Reader.advance [] = some []

/-! ### Legible nodes -/

/-- A slot that holds nothing but white space and stray semicolons, if it was read. -/
def IsFillerSlot (slot : Option String) : Prop := ∀ s ∈ slot, IsFiller s.toList

/-- A slot that holds nothing but white space, if it was read. -/
def IsGapSlot (slot : Option String) : Prop := ∀ s ∈ slot, IsGap s.toList

/-- Whether the last node of a container can do without a semicolon. -/
def Node.FitsBefore (slot : Option String) : Node → Prop
  | .declaration _ value _ => ∃ d, Follows slot d ∧ IsValueText value d
  | .statement name params layout =>
    ∃ d, Follows slot d ∧ IsAtRuleText name params layout.afterName d
  | _ => True

mutual

/-- **A node is legible** if its texts are, where they are printed. -/
def Node.IsLegible : Node → Prop
  | .comment text layout => IsFillerSlot layout.before ∧ ¬['*', '/'] <:+: text.toList
  | .declaration property value layout =>
    IsFillerSlot layout.before ∧ IsGapSlot layout.after ∧
      IsPropertyText property (layout.between.getD ": ") ∧
      ∃ d, Follows layout.after d ∧ IsValueText value d
  | .statement name params layout =>
    IsFillerSlot layout.before ∧ IsGapSlot layout.between ∧ layout.after = none ∧
      layout.semicolon = none ∧ ∃ d, Follows layout.between d ∧
        IsAtRuleText name params layout.afterName d
  | .block name params nodes layout =>
    IsFillerSlot layout.before ∧ IsGapSlot layout.between ∧ IsFillerSlot layout.after ∧
      (∃ d, Follows layout.between d ∧ IsAtRuleText name params layout.afterName d) ∧
      (layout.semicolon = some false → ∀ last ∈ nodes.getLast?, last.FitsBefore layout.after) ∧
      AreLegible nodes
  | .rule selector nodes layout =>
    IsFillerSlot layout.before ∧ IsGapSlot layout.between ∧ IsFillerSlot layout.after ∧
      (selector ≠ "" → ∃ d, Follows layout.between d ∧ IsSelectorText selector d) ∧
      (layout.semicolon = some false → ∀ last ∈ nodes.getLast?, last.FitsBefore layout.after) ∧
      AreLegible nodes

/-- All nodes of a container are legible. -/
def AreLegible : List Node → Prop
  | [] => True
  | node :: rest => node.IsLegible ∧ AreLegible rest

end

theorem areLegible_iff {nodes : List Node} : AreLegible nodes ↔ ∀ node ∈ nodes, node.IsLegible := by
  induction nodes with
  | nil => simp [AreLegible]
  | cons node rest ih => simp [AreLegible, ih]

/-- What is behind the last statement of a style sheet, if that is without a semicolon. -/
def Sheet.openEnd (sheet : Sheet) : Option (Option String) :=
  if sheet.semicolon then none else some (some sheet.after)

theorem Sheet.mem_openEnd {sheet : Sheet} {after : Option String} :
    after ∈ sheet.openEnd ↔ sheet.semicolon = false ∧ after = some sheet.after := by
  cases hsemicolon : sheet.semicolon <;> simp [openEnd, hsemicolon, eq_comm]

/-! ### Tame trees -/

/-- Whether a text is neat. -/
def isNeat (cs : List Char) : Bool :=
  Text.collapseBlankLines cs == cs && !Text.contains markerTail cs && !(cs.head?.any isBlank) &&
    !(cs.getLast?.any fun c => isBlank c || c == '\\' || c == '(')

/-- Whether the text between a property and its value is a colon with white space around it,
and without blank lines to collapse. -/
def isTameColon (cs : List Char) : Bool :=
  let gap := cs.takeWhile isSpace
  match cs.dropWhile isSpace with
  | ':' :: gap' =>
    Text.collapseBlankLines gap == gap && Text.collapseBlankLines gap' == gap' && gap'.all isSpace
  | _ => false

/-- Whether the text of an at-rule is neat, and all of it printed. -/
def isTameAtRule (name params : String) (afterName : Option String) : Bool :=
  isNeat (atRuleText name params afterName) && (!params.isEmpty || (slot afterName).isEmpty)

mutual

/-- Whether the texts of a node are neat, so that it is legible if it was read. -/
def Node.isTame : Node → Bool
  | .comment text _ =>
    text == breakMarkerText || !Text.contains markerText ("/*" ++ text ++ "*/").toList
  | .declaration property value layout =>
    isNeat property.toList && isNeat value.toList && isTameColon (layout.between.getD ": ").toList
  | .statement name params layout => isTameAtRule name params layout.afterName
  | .block name params nodes layout =>
    isTameAtRule name params layout.afterName && areTame nodes
  | .rule selector nodes _ => isNeat selector.toList && areTame nodes

/-- Whether the texts of the nodes of a container are neat. -/
def areTame : List Node → Bool
  | [] => true
  | node :: rest => node.isTame && areTame rest

end

theorem areTame_iff {nodes : List Node} : areTame nodes ↔ ∀ node ∈ nodes, node.isTame := by
  induction nodes with
  | nil => simp [areTame]
  | cons node rest ih => simp [areTame, ih]

theorem isNeat_iff {cs : List Char} : isNeat cs ↔ IsNeat cs := by
  unfold isNeat
  constructor
  · intro h
    simp only [Bool.and_eq_true, beq_iff_eq, Bool.not_eq_true'] at h
    have hlast (c : Char) (hc : c ∈ cs.getLast?) : ¬isBlank c ∧ c ≠ '\\' ∧ c ≠ '(' := by
      have hany := h.2
      rw [Option.mem_def.mp hc] at hany
      simpa [and_assoc] using hany
    refine ⟨⟨fun c hc => ?_, fun c hc => (hlast c hc).1⟩, h.1.1.1,
      Text.contains_eq_false_iff.mp h.1.1.2, fun c hc => (hlast c hc).2⟩
    have hfirst := h.1.2
    rw [Option.mem_def.mp hc] at hfirst
    simpa using hfirst
  · intro h
    simp only [Bool.and_eq_true, beq_iff_eq, Bool.not_eq_true']
    refine ⟨⟨⟨h.collapsed, Text.contains_eq_false_iff.mpr h.unmarked⟩, ?_⟩, ?_⟩
    · cases hfirst : cs.head? with
      | none => rfl
      | some c => simpa using h.first c hfirst
    · cases hlast : cs.getLast? with
      | none => rfl
      | some c => simpa [and_assoc] using And.intro (h.last c hlast) (h.closed c hlast)

theorem exists_of_isTameColon {cs : List Char} (h : isTameColon cs) :
    ∃ gap gap', cs = gap ++ ':' :: gap' ∧ IsGap gap ∧ IsGap gap' ∧
      Text.collapseBlankLines gap = gap ∧ Text.collapseBlankLines gap' = gap' := by
  simp only [isTameColon] at h
  split at h
  · next gap' hrest =>
    simp only [Bool.and_eq_true, beq_iff_eq, List.all_eq_true] at h
    refine ⟨cs.takeWhile isSpace, gap', ?_, ?_, h.2, h.1.1, h.1.2⟩
    · rw [← hrest, List.takeWhile_append_dropWhile]
    · exact fun c hc => List.mem_takeWhile_imp hc
  · cases h

/-- What is around a colon that is tame, if no other colon is there. -/
theorem gaps_of_isTameColon {gap gap' : List Char} (h : isTameColon (gap ++ ':' :: gap'))
    (hgap : ':' ∉ gap) (hgap' : ':' ∉ gap') : IsGap gap ∧ IsGap gap' ∧
      Text.collapseBlankLines gap = gap ∧ Text.collapseBlankLines gap' = gap' := by
  obtain ⟨front, back, heq, hall⟩ := exists_of_isTameColon h
  obtain ⟨rfl, -, rfl⟩ := (List.append_cons_inj_of_notMem hgap hgap').mp heq
  exact hall

end Restyle.Css
