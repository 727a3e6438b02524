import Restyle.Css.Edit
import Restyle.Proofs.Css.Edit
import Restyle.Proofs.Css.Legibility
import Restyle.Proofs.Css.Revision

/-!
# Edits keep a tree legible

A node that is added to a tree was never read, so it has to be known that it is read as what it
is. It is enough to know this of the node alone, with white space behind its words
(`Restyle.Css.Node.IsSound`): what stands in front of white space may stand in front of
whatever else follows it where the node is added. So every edit that adds sound nodes keeps a
tree clear, that is legible and tame.

A body whose last statement is without a semicolon asks for a little more of its last node,
since the closing brace or what is in front of it follows there (`Restyle.Css.IsClearBody`).
-/

namespace Restyle.Css

/-! ### Sound nodes -/

/-- **A node that is read as itself** where it is written alone. -/
def Node.IsSound (node : Node) : Prop :=
  node.isTame ∧ Sheet.ofString (Sheet.render { nodes := [node] }) = .ok { nodes := [node] }

instance (node : Node) : Decidable node.IsSound :=
  inferInstanceAs (Decidable (_ ∧ _))

theorem Node.IsSound.isLegible {node : Node} (h : node.IsSound) : node.IsLegible :=
  (isLegible_of_ofString h.2 rfl).1 node List.mem_cons_self h.1

/-- The space in front of the parameters of an at-rule, if it has any. -/
def spaceBehindName (params : String) : String :=
  if params = "" then "" else " "

/-- The node of a place, alone and with a space in front of its body. -/
def Place.alone : Place → Node
  | rule selector => .rule selector []
    { before := some "", between := some " ", after := some "", semicolon := some true }
  | atRule name params => .block name params []
    { before := some "", between := some " ", after := some "", semicolon := some true
      afterName := some (spaceBehindName params) }

/-- An at-rule without a body, alone and with a space in front of its semicolon. -/
def statementAlone (name params : String) : Node :=
  .statement name params
    { before := some "", between := some " ", afterName := some (spaceBehindName params) }

/-- A declaration, alone and with a space in front of its semicolon. -/
def declarationAlone (property value : String) : Node :=
  .declaration property value { before := some "", between := some ":", after := some " " }

/-! ### Clear trees -/

/-- A node that is legible and tame. -/
def Node.IsClear (node : Node) : Prop :=
  node.IsLegible ∧ node.isTame

/-- The nodes of a body that are legible and tame, with what is behind the last of them if that
is without a semicolon. -/
structure IsClearBody (trail : Option (Option String)) (nodes : List Node) : Prop where
  clear : ∀ node ∈ nodes, node.IsClear
  last : ∀ after ∈ trail, ∀ node ∈ nodes.getLast?, node.FitsBefore after

/-- **A style sheet that is read is clear**, if it is tame, up to a last statement that no
semicolon could end. -/
theorem isClearBody_of_ofString {text : String} {sheet : Sheet}
    (hread : Sheet.ofString text = .ok sheet)
    (hended : sheet.semicolon = false → Sheet.ofString (text ++ ";") = .ok sheet.ended)
    (htame : areTame sheet.nodes) :
    IsClearBody sheet.openEnd sheet.nodes ∧ IsFiller sheet.after.toList := by
  obtain ⟨hlegible, hafter, hlast⟩ := areLegible_of_ofString hread hended htame
  refine ⟨⟨fun node hnode => ?_, hlast⟩, hafter⟩
  exact ⟨areLegible_iff.mp hlegible node hnode, areTame_iff.mp htame node hnode⟩

/-- **A node that is clear wherever it is added.** -/
structure Node.IsLoose (node : Node) : Prop where
  clear : node.IsClear
  fits : ∀ after, node.FitsBefore after

theorem Follows.space_of_some {d : Char} (h : Follows (some " ") d) : isSpace d :=
  h.space (by decide)

/-- A space may follow anything. -/
theorem follows_space (read : Option String) : Follows read ' ' :=
  ⟨by decide, fun _ => by decide⟩

theorem IsSelectorText.giveWay {selector : String} {d d' : Char} (h : IsSelectorText selector d)
    (hd' : isInert d') (hspace : isSpace d' → isSpace d) : IsSelectorText selector d' :=
  ⟨h.readable.giveWay hd' hspace, h.heading⟩

theorem IsAtRuleText.giveWay {name params : String} {afterName : Option String} {d d' : Char}
    (h : IsAtRuleText name params afterName d) (hd' : isInert d')
    (hspace : isSpace d' → isSpace d) :
    IsAtRuleText name params afterName d' :=
  ⟨h.readable.giveWay hd' hspace, h.heading, h.printed⟩

/-- What was read behind a name is what is printed by default. -/
theorem atRuleText_spaceBehindName (name params : String) :
    atRuleText name params (some (spaceBehindName params)) = atRuleText name params none := by
  by_cases hparams : params = "" <;> simp [atRuleText, spaceBehindName, hparams]

theorem isAtRuleText_alone {name params : String} {d : Char}
    (h : IsAtRuleText name params (some (spaceBehindName params)) d) (hd : isSpace d) :
    IsAtRuleText name params none ' ' := by
  have hspaced : IsAtRuleText name params (some (spaceBehindName params)) ' ' :=
    h.giveWay (by decide) fun _ => hd
  have htext := atRuleText_spaceBehindName name params
  exact ⟨htext ▸ hspaced.readable, htext ▸ hspaced.heading, htext ▸ hspaced.printed⟩

theorem isTameAtRule_none {name params : String}
    (h : isTameAtRule name params (some (spaceBehindName params))) :
    isTameAtRule name params none := by
  rw [isTameAtRule, Bool.and_eq_true] at h ⊢
  refine ⟨atRuleText_spaceBehindName name params ▸ h.1, by simp [slot]⟩

/-- The node that is made where a place is missing. -/
theorem Place.isLoose_fresh {place : Place} (h : place.alone.IsSound) : place.fresh.IsLoose := by
  have hlegible := h.isLegible
  have htame := h.1
  cases place with
  | rule selector =>
    obtain ⟨-, -, -, hselector, -⟩ := hlegible
    simp only [Place.alone, Node.isTame, Bool.and_eq_true] at htame
    refine ⟨⟨⟨by simp [IsFillerSlot], by simp [IsGapSlot], by simp [IsFillerSlot], fun hne => ?_,
      by simp, trivial⟩, ?_⟩, fun _ => trivial⟩
    · obtain ⟨d, hfollows, hread⟩ := hselector hne
      exact ⟨' ', follows_space _, hread.giveWay (by decide) fun _ => hfollows.space_of_some⟩
    · simp [Place.fresh, Node.isTame, htame.1, areTame]
  | atRule name params =>
    obtain ⟨-, -, -, ⟨d, hfollows, hrule⟩, -⟩ := hlegible
    simp only [Place.alone, Node.isTame, Bool.and_eq_true] at htame
    refine ⟨⟨⟨by simp [IsFillerSlot], by simp [IsGapSlot], by simp [IsFillerSlot],
      ⟨' ', follows_space _, ?_⟩, by simp, trivial⟩, ?_⟩, fun _ => trivial⟩
    · exact isAtRuleText_alone hrule hfollows.space_of_some
    · simp [Place.fresh, Node.isTame, isTameAtRule_none htame.1, areTame]

theorem isLoose_statement {name params : String} (h : (statementAlone name params).IsSound) :
    (Node.statement name params {}).IsLoose := by
  obtain ⟨-, -, -, -, d, hfollows, hrule⟩ := h.isLegible
  have hread := isAtRuleText_alone hrule hfollows.space_of_some
  have htame : isTameAtRule name params none := isTameAtRule_none h.1
  exact ⟨⟨⟨by simp [IsFillerSlot], by simp [IsGapSlot], rfl, rfl, ' ', follows_space _, hread⟩,
    htame⟩, fun after => ⟨' ', follows_space _, hread⟩⟩

/-- The texts of a sound declaration. -/
theorem isValueText_of_isSound {property value : String}
    (h : (declarationAlone property value).IsSound) :
    IsPropertyText property ": " ∧ IsValueText value ' ' ∧ isNeat property.toList ∧
      isNeat value.toList := by
  obtain ⟨-, -, hproperty, d, hfollows, hvalue⟩ := h.isLegible
  have htame := h.1
  simp only [declarationAlone, Node.isTame, Bool.and_eq_true] at htame
  refine ⟨?_, hvalue.giveWay (by decide) fun _ => hfollows.space_of_some, htame.1.1, htame.1.2⟩
  obtain ⟨htrimmed, front, gap, gap', hbetween, -, -, hrest⟩ := hproperty
  have hcolon : [':'] = gap ++ ':' :: gap' := hbetween
  cases gap with
  | nil => exact ⟨htrimmed, front, [], [' '], rfl, by simp [IsGap], isGap_space, hrest⟩
  | cons c gap => simp at hcolon

theorem isLoose_declaration {property value : String}
    (h : (declarationAlone property value).IsSound) :
    (Node.declaration property value {}).IsLoose := by
  obtain ⟨hproperty, hvalue, hneat, hneat'⟩ := isValueText_of_isSound h
  refine ⟨⟨⟨by simp [IsFillerSlot], by simp [IsGapSlot], hproperty, ' ', follows_space _, hvalue⟩,
    ?_⟩, fun after => ⟨' ', follows_space _, hvalue⟩⟩
  have hblank (cs : List Char) (h : '\n' ∉ cs) : Text.collapseBlankLines cs = cs :=
    Text.collapseBlankLines_of_notMem h
  have hcolon : isTameColon [':', ' '] = true := by
    simp [isTameColon, hblank, isSpace]
  simp [Node.isTame, hneat, hneat', hcolon]

theorem isLoose_breakMarker : breakMarker.IsLoose := by
  refine ⟨⟨⟨by simp [IsFillerSlot], ?_⟩, by simp [breakMarker, Node.isTame]⟩, fun _ => trivial⟩
  decide

/-! ### Edits of a body -/

variable {trail : Option (Option String)} {nodes : List Node} {node : Node}

theorem IsClearBody.nil (trail : Option (Option String)) : IsClearBody trail [] :=
  ⟨by simp, by simp⟩

theorem isClearBody_cons_cons {next : Node} {rest : List Node} :
    IsClearBody trail (node :: next :: rest) ↔ node.IsClear ∧ IsClearBody trail (next :: rest) := by
  constructor
  · rintro ⟨hclear, hlast⟩
    exact ⟨hclear node List.mem_cons_self,
      ⟨fun other hother => hclear other (List.mem_cons_of_mem _ hother), hlast⟩⟩
  · rintro ⟨hnode, hclear, hlast⟩
    refine ⟨fun other hother => ?_, hlast⟩
    rcases List.mem_cons.mp hother with rfl | hother
    · exact hnode
    · exact hclear other hother

theorem isClearBody_singleton :
    IsClearBody trail [node] ↔ node.IsClear ∧ ∀ after ∈ trail, node.FitsBefore after := by
  constructor
  · rintro ⟨hclear, hlast⟩
    exact ⟨hclear node List.mem_cons_self, fun after hafter => hlast after hafter node rfl⟩
  · rintro ⟨hnode, hfits⟩
    refine ⟨by simpa using hnode, fun after hafter other hother => ?_⟩
    obtain rfl := Option.some.inj hother
    exact hfits after hafter

theorem isClearBody_of_isLoose (h : ∀ node ∈ nodes, node.IsLoose) : IsClearBody trail nodes :=
  ⟨fun node hnode => (h node hnode).clear, fun after _ node hnode =>
    (h node (List.mem_of_getLast? hnode)).fits after⟩

/-- One more node at the end. -/
theorem IsClearBody.append (h : IsClearBody trail nodes) (hnode : node.IsLoose) :
    IsClearBody trail (nodes ++ [node]) := by
  refine ⟨fun other hother => ?_, fun after _ other hother => ?_⟩
  · rcases List.mem_append.mp hother with hother | hother
    · exact h.clear other hother
    · rw [List.mem_singleton.mp hother]
      exact hnode.clear
  · obtain rfl : node = other := by simpa using hother
    exact hnode.fits after

theorem IsClearBody.push (h : IsClearBody trail nodes) (hnode : node.IsLoose) (withBreak : Bool) :
    IsClearBody trail (Css.push withBreak node nodes) := by
  unfold Css.push
  split_ifs
  · have hmarked := (h.append isLoose_breakMarker).append hnode
    rwa [List.append_assoc] at hmarked
  · exact h.append hnode

theorem IsClearBody.reach (h : IsClearBody trail nodes) {place : Place}
    (hplace : place.alone.IsSound) (withBreak : Bool) :
    IsClearBody trail (Css.reach place withBreak nodes) := by
  unfold Css.reach
  split_ifs
  · exact h
  · exact h.push (Place.isLoose_fresh hplace) withBreak

theorem IsClearBody.ensureStatement (h : IsClearBody trail nodes) {name params : String}
    (hstatement : (statementAlone name params).IsSound) (withBreak : Bool) :
    IsClearBody trail (Css.ensureStatement name params withBreak nodes) := by
  unfold Css.ensureStatement
  split_ifs
  · exact h
  · exact h.push (isLoose_statement hstatement) withBreak

/-- The value of a declaration is replaced, whatever follows it. -/
theorem Node.IsClear.replaceValue {property old value : String} {layout : Layout}
    (h : (Node.declaration property old layout).IsClear)
    (hvalue : (declarationAlone property value).IsSound) :
    (Node.declaration property value layout).IsClear ∧
      ∀ after, (Node.declaration property value layout).FitsBefore after := by
  obtain ⟨-, htext, -, hneat⟩ := isValueText_of_isSound hvalue
  obtain ⟨⟨hbefore, hafter, hproperty, -⟩, htame⟩ := h
  simp only [Node.isTame, Bool.and_eq_true] at htame
  refine ⟨⟨⟨hbefore, hafter, hproperty, ' ', follows_space _, htext⟩, ?_⟩,
    fun after => ⟨' ', follows_space _, htext⟩⟩
  simp [Node.isTame, htame, hneat]

/-- A node in front of others. -/
theorem IsClearBody.cons_of_fits (hnode : node.IsClear) (hfits : ∀ after, node.FitsBefore after)
    (h : IsClearBody trail nodes) : IsClearBody trail (node :: nodes) := by
  cases nodes with
  | nil => exact isClearBody_singleton.mpr ⟨hnode, fun after _ => hfits after⟩
  | cons next rest => exact isClearBody_cons_cons.mpr ⟨hnode, h⟩

theorem IsClearBody.tail {rest : List Node} (h : IsClearBody trail (node :: rest)) :
    node.IsClear ∧ IsClearBody trail rest := by
  cases rest with
  | nil => exact ⟨(isClearBody_singleton.mp h).1, .nil trail⟩
  | cons next rest => exact isClearBody_cons_cons.mp h

theorem IsClearBody.cons_of_ne_nil (hnode : node.IsClear) (hne : nodes ≠ [])
    (h : IsClearBody trail nodes) : IsClearBody trail (node :: nodes) := by
  obtain ⟨next, rest, rfl⟩ := List.exists_cons_of_ne_nil hne
  exact isClearBody_cons_cons.mpr ⟨hnode, h⟩

theorem IsClearBody.append_of_clear {front : List Node} (h : IsClearBody trail nodes)
    (hfront : ∀ node ∈ front, node.IsClear) (hne : nodes ≠ []) :
    IsClearBody trail (front ++ nodes) := by
  induction front with
  | nil => exact h
  | cons node front ih =>
    obtain ⟨hnode, hrest⟩ := List.forall_mem_cons.mp hfront
    exact (ih hrest).cons_of_ne_nil hnode (by simp [hne])

theorem IsClearBody.drop (h : IsClearBody trail nodes) (index : Nat) :
    IsClearBody trail (nodes.drop index) := by
  induction nodes generalizing index with
  | nil =>
    rw [List.drop_nil]
    exact h
  | cons node rest ih =>
    cases index with
    | zero => exact h
    | succ index => exact ih h.tail.2 index

theorem IsClearBody.declare {property value : String} (h : IsClearBody trail nodes)
    (hvalue : (declarationAlone property value).IsSound) :
    IsClearBody trail (Css.declare property value nodes) := by
  have hnew := isLoose_declaration hvalue
  induction nodes with
  | nil => exact isClearBody_singleton.mpr ⟨hnew.clear, fun after _ => hnew.fits after⟩
  | cons node rest ih =>
    obtain ⟨hnode, hrest⟩ := h.tail
    by_cases hdeclares : node.declares property
    · rw [declare_cons_of_declares hdeclares]
      cases node with
      | declaration other old layout =>
        obtain rfl : other = property := by simpa [declares_declaration] using hdeclares
        obtain ⟨hclear, hfits⟩ := hnode.replaceValue hvalue
        exact hrest.cons_of_fits hclear hfits
      | _ => simp [Node.declares, Node.declaration?] at hdeclares
    · rw [declare_cons_of_not_declares hdeclares]
      refine (ih hrest).cons_of_ne_nil hnode ?_
      cases rest with
      | nil => simp [Css.declare]
      | cons next rest => exact keepsSome_declare property value _ (List.cons_ne_nil _ _)

theorem IsClearBody.assign {property value : String} (h : IsClearBody trail nodes)
    (hvalue : (declarationAlone property value).IsSound) (overwrite : Bool) :
    IsClearBody trail (Css.assign overwrite property value nodes) := by
  unfold Css.assign
  split_ifs
  · exact h.declare hvalue
  · exact h

/-- A loose node between others. -/
theorem IsClearBody.insertBetween {front back : List Node} (h : IsClearBody trail (front ++ back))
    (hnode : node.IsLoose) : IsClearBody trail (front ++ node :: back) := by
  induction front with
  | nil => exact h.cons_of_fits hnode.clear hnode.fits
  | cons first front ih =>
    obtain ⟨hfirst, hrest⟩ := h.tail
    exact (ih hrest).cons_of_ne_nil hfirst (by simp)

theorem IsClearBody.insertProperty {property value : String} (h : IsClearBody trail nodes)
    (hvalue : (declarationAlone property value).IsSound) :
    IsClearBody trail (Css.insertProperty property value nodes) := by
  unfold Css.insertProperty
  split_ifs
  · exact h
  · refine IsClearBody.insertBetween ?_ (isLoose_declaration hvalue)
    rwa [List.take_append_drop]

/-- One edit for each of some declarations. -/
theorem IsClearBody.foldl {write : List Node → String × String → List Node}
    {declarations : List (String × String)}
    (hwrite : ∀ declaration ∈ declarations, ∀ nodes, IsClearBody trail nodes →
      IsClearBody trail (write nodes declaration))
    (h : IsClearBody trail nodes) : IsClearBody trail (declarations.foldl write nodes) := by
  induction declarations generalizing nodes with
  | nil => exact h
  | cons declaration rest ih =>
    obtain ⟨hfirst, hrest⟩ := List.forall_mem_cons.mp hwrite
    exact ih hrest (hfirst nodes h)

/-! ### Edits inside a node -/

/-- What is behind the last statement in a body, if that is without a semicolon. -/
def Layout.openEnd (layout : Layout) : Option (Option String) :=
  if layout.semicolon = some false then some layout.after else none

theorem forall_mem_openEnd {layout : Layout} {p : Option String → Prop} :
    (∀ after ∈ layout.openEnd, p after) ↔ (layout.semicolon = some false → p layout.after) := by
  unfold Layout.openEnd
  split_ifs with h <;> simp [h]

/-- What is inside a node is a clear body, in front of what its layout says. -/
theorem isClearBody_openEnd {layout : Layout} : IsClearBody layout.openEnd nodes ↔
    AreLegible nodes ∧ areTame nodes ∧ (layout.semicolon = some false →
      ∀ last ∈ nodes.getLast?, last.FitsBefore layout.after) := by
  constructor
  · intro h
    exact ⟨areLegible_iff.mpr fun node hnode => (h.clear node hnode).1,
      areTame_iff.mpr fun node hnode => (h.clear node hnode).2, forall_mem_openEnd.mp h.last⟩
  · rintro ⟨hlegible, htame, hlast⟩
    exact ⟨fun node hnode =>
        ⟨areLegible_iff.mp hlegible node hnode, areTame_iff.mp htame node hnode⟩,
      forall_mem_openEnd.mpr hlast⟩

/-- **A node stays clear** when what is inside it does. -/
theorem Node.IsClear.fill {f : List Node → List Node} (h : node.IsClear)
    (hf : ∀ trail nodes, IsClearBody trail nodes → IsClearBody trail (f nodes)) :
    (node.fill f).IsClear := by
  obtain ⟨hlegible, htame⟩ := h
  cases node with
  | rule selector nodes layout =>
    obtain ⟨hbefore, hbetween, hafter, htext, hlast, hnodes⟩ := hlegible
    simp only [Node.isTame, Bool.and_eq_true] at htame
    obtain ⟨hnodes, hinner, hlast⟩ := isClearBody_openEnd.mp
      (hf _ _ (isClearBody_openEnd.mpr ⟨hnodes, htame.2, hlast⟩))
    refine ⟨⟨hbefore, hbetween, hafter, htext, hlast, hnodes⟩, ?_⟩
    simp [Node.fill, Node.mapChildren, Node.isTame, htame.1, hinner]
  | block name params nodes layout =>
    obtain ⟨hbefore, hbetween, hafter, htext, hlast, hnodes⟩ := hlegible
    simp only [Node.isTame, Bool.and_eq_true] at htame
    obtain ⟨hnodes, hinner, hlast⟩ := isClearBody_openEnd.mp
      (hf _ _ (isClearBody_openEnd.mpr ⟨hnodes, htame.2, hlast⟩))
    refine ⟨⟨hbefore, hbetween, hafter, htext, hlast, hnodes⟩, ?_⟩
    simp [Node.fill, Node.mapChildren, Node.isTame, htame.1, hinner]
  | statement name params layout =>
    unfold Node.fill
    split_ifs
    · exact ⟨hlegible, htame⟩
    · -- an at-rule without a body has nothing behind one
      obtain ⟨hbefore, hbetween, hafter, hsemicolon, htext⟩ := hlegible
      obtain ⟨hnodes, hinner, hlast⟩ := isClearBody_openEnd.mp (hf layout.openEnd [] (.nil _))
      refine ⟨⟨hbefore, hbetween, by simp [hafter, IsFillerSlot], htext, hlast, hnodes⟩, ?_⟩
      simp only [Node.isTame] at htame
      simp [Node.mapChildren, Node.isTame, htame, hinner]
  | declaration property value layout => exact ⟨hlegible, htame⟩
  | comment text layout => exact ⟨hlegible, htame⟩

/-- What holds other nodes may be last. -/
theorem Node.fitsBefore_fill {place : Place} (hplace : place.isAt node) (f : List Node → List Node)
    {after : Option String} (h : node.FitsBefore after) : (node.fill f).FitsBefore after := by
  cases node with
  | statement name params layout =>
    unfold Node.fill
    split_ifs
    · exact h
    · trivial
  | _ => exact h

theorem IsClearBody.inside {place : Place} {f : List Node → List Node} (h : IsClearBody trail nodes)
    (hf : ∀ trail nodes, IsClearBody trail nodes → IsClearBody trail (f nodes)) :
    IsClearBody trail (Css.inside place f nodes) := by
  induction nodes with
  | nil => exact h
  | cons node rest ih =>
    by_cases hplace : place.isAt node
    · rw [inside_cons_of_isAt hplace]
      cases rest with
      | nil =>
        obtain ⟨hnode, hfits⟩ := isClearBody_singleton.mp h
        exact isClearBody_singleton.mpr
          ⟨hnode.fill hf, fun after hafter => Node.fitsBefore_fill hplace f (hfits after hafter)⟩
      | cons next rest =>
        obtain ⟨hnode, hrest⟩ := isClearBody_cons_cons.mp h
        exact isClearBody_cons_cons.mpr ⟨hnode.fill hf, hrest⟩
    · rw [inside_cons_of_not_isAt hplace]
      cases rest with
      | nil => exact h
      | cons next rest =>
        obtain ⟨hnode, hrest⟩ := isClearBody_cons_cons.mp h
        exact (ih hrest).cons_of_ne_nil hnode (keepsSome_inside place f _ (List.cons_ne_nil _ _))

theorem IsClearBody.enter {place : Place} {f : List Node → List Node} (h : IsClearBody trail nodes)
    (hplace : place.alone.IsSound) (withBreak : Bool)
    (hf : ∀ trail nodes, IsClearBody trail nodes → IsClearBody trail (f nodes)) :
    IsClearBody trail (Css.enter place withBreak f nodes) :=
  (h.reach hplace withBreak).inside hf

/-- A loose node stays loose. -/
theorem Node.IsLoose.fill {place : Place} {f : List Node → List Node} (h : node.IsLoose)
    (hplace : place.isAt node)
    (hf : ∀ trail nodes, IsClearBody trail nodes → IsClearBody trail (f nodes)) :
    (node.fill f).IsLoose :=
  ⟨h.clear.fill hf, fun after => Node.fitsBefore_fill hplace f (h.fits after)⟩

/-! ### Edits of a style sheet -/

theorem Node.IsClear.loosen (h : node.IsClear) : node.loosen.IsClear := by
  unfold Node.loosen
  split_ifs
  · obtain ⟨hlegible, htame⟩ := h
    cases node <;> exact ⟨⟨by simp [IsFillerSlot], hlegible.2⟩, htame⟩
  · exact h

theorem Node.FitsBefore.loosen {after : Option String} (h : node.FitsBefore after) :
    node.loosen.FitsBefore after := by
  unfold Node.loosen
  split_ifs
  · cases node <;> exact h
  · exact h

/-- What is in front of a node says nothing of its texts. -/
theorem IsClearBody.loosen_head (h : IsClearBody trail (node :: nodes)) :
    IsClearBody trail (node.loosen :: nodes) := by
  cases nodes with
  | nil =>
    obtain ⟨hnode, hfits⟩ := isClearBody_singleton.mp h
    exact isClearBody_singleton.mpr ⟨hnode.loosen, fun after hafter => (hfits after hafter).loosen⟩
  | cons next rest =>
    obtain ⟨hnode, hrest⟩ := isClearBody_cons_cons.mp h
    exact isClearBody_cons_cons.mpr ⟨hnode.loosen, hrest⟩

/-- Loose nodes in front of others. -/
theorem IsClearBody.insertAt {new : List Node} (h : IsClearBody trail nodes)
    (hnew : ∀ node ∈ new, node.IsLoose) (index : Nat) :
    IsClearBody trail (Css.insertAt index new nodes) := by
  unfold Css.insertAt
  split_ifs with hempty
  · exact h
  have hne : new ≠ [] := by simpa using hempty
  have hfront : ∀ node ∈ nodes.take index ++ new, node.IsClear := List.forall_mem_append.mpr
    ⟨fun node hnode => h.clear node (List.mem_of_mem_take hnode),
      fun node hnode => (hnew node hnode).clear⟩
  split
  · next hdrop =>
    -- a new node is the last one, and loose nodes may be
    rw [List.append_nil]
    refine ⟨hfront, fun after _ last hlast => ?_⟩
    rw [List.getLast?_append_of_ne_nil _ hne] at hlast
    exact (hnew last (List.mem_of_getLast? hlast)).fits after
  · next next rest hdrop =>
    have hback := h.drop index
    rw [hdrop] at hback
    exact hback.loosen_head.append_of_clear hfront (List.cons_ne_nil _ _)

theorem IsClearBody.ensureImport {params : String} (h : IsClearBody trail nodes)
    (hstatement : (statementAlone "import" params).IsSound) :
    IsClearBody trail (Css.ensureImport params nodes) := by
  unfold Css.ensureImport
  split_ifs
  · exact h
  · refine h.insertAt (fun node hnode => ?_) _
    rw [List.mem_singleton.mp hnode]
    exact isLoose_statement hstatement

theorem IsClearBody.ensurePlugin {params : String} (h : IsClearBody trail nodes)
    (hstatement : (statementAlone "plugin" (writtenPlugin params)).IsSound) :
    IsClearBody trail (Css.ensurePlugin params nodes) := by
  have hplugin := isLoose_statement hstatement
  have hmarker := isLoose_breakMarker
  rw [ensurePlugin_eq]
  split_ifs
  · exact h
  · split <;> exact h.insertAt (by simp [hplugin, hmarker]) _

end Restyle.Css
