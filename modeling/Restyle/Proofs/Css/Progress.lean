import Restyle.Proofs.Css.Acceptance

/-!
# How far the reader is

In the middle of a text, what has been read is in two parts (`Restyle.Css.Reader.State.HasRead`):
tokens behind which an item may start, and the run of the statement that has begun there. The first
part may leave bodies open, told by where their opening braces are (`Restyle.Css.LeavesOpen`), and
these places the reader remembers.

One more token goes on with the run or ends an item (`Restyle.Css.Reader.State.HasRead.step`). So
all that is read from the start of a text is of this kind (`Restyle.Css.Reader.exists_hasRead`),
whatever comes behind it.
-/

namespace Restyle.Css

/-! ### Places where an item may start -/

/-- The number of characters of some tokens. -/
def lengthOf (toks : List Token) : Nat :=
  (toks.flatMap Token.text).length

theorem lengthOf_append (front rest : List Token) :
    lengthOf (front ++ rest) = lengthOf front + lengthOf rest := by
  simp [lengthOf]

theorem lengthOf_singleton (token : Token) : lengthOf [token] = token.text.length := by
  simp [lengthOf]

/-- **Whole items**: items of a container behind which another one may start. -/
inductive AreWhole : List Token → Prop
  | nil : AreWhole []
  | filler {token rest} :
      token.kind = .space ∨ token.kind = .semicolon ∨ token.kind = .comment →
      AreWhole rest → AreWhole (token :: rest)
  | block {outer run opening body closing rest} : IsRun false outer run →
      StartsWithValue run → opening.kind = .openCurly → AreItems false body →
      closing.kind = .closeCurly → AreWhole rest →
      AreWhole (run ++ opening :: (body ++ closing :: rest))
  | terminated {outer run mark rest} : IsRun false outer run → StartsWithValue run →
      IsMeaningful outer → mark.kind = .semicolon → AreWhole rest →
      AreWhole (run ++ mark :: rest)

/-- **Tokens behind which an item may start**: whole items, and the bodies that are left open around
them. The opening braces of these bodies, the innermost first, are behind `braces` characters. -/
inductive LeavesOpen : (braces : List Nat) → List Token → Prop
  | outermost {items} : AreWhole items → LeavesOpen [] items
  | body {braces front outer run brace items} : LeavesOpen braces front → IsRun false outer run →
      StartsWithValue run → brace.kind = .openCurly → AreWhole items →
      LeavesOpen (lengthOf (front ++ run) :: braces) (front ++ run ++ brace :: items)

variable {last : Bool} {places : List Nat} {toks front items run outer : List Token} {token : Token}

/-- Items behind whole items. -/
theorem AreWhole.areItems (h : AreWhole front) (hitems : AreItems last items) :
    AreItems last (front ++ items) := by
  induction h with
  | nil => exact hitems
  | filler hkind _ ih => exact .filler hkind ih
  | block hrun hstarts hopens hbody hcloses _ ih =>
    simpa using AreItems.block hrun hstarts hopens hbody hcloses ih
  | terminated hrun hstarts hmeaningful hkind _ ih =>
    simpa using AreItems.terminated hrun hstarts hmeaningful hkind ih

theorem AreWhole.append (h : AreWhole front) (hitems : AreWhole items) :
    AreWhole (front ++ items) := by
  induction h with
  | nil => exact hitems
  | filler hkind _ ih => exact .filler hkind ih
  | block hrun hstarts hopens hbody hcloses _ ih =>
    simpa using AreWhole.block hrun hstarts hopens hbody hcloses ih
  | terminated hrun hstarts hmeaningful hkind _ ih =>
    simpa using AreWhole.terminated hrun hstarts hmeaningful hkind ih

/-- Whole items go into the innermost body that is open. -/
theorem LeavesOpen.append (h : LeavesOpen places front) (hitems : AreWhole items) :
    LeavesOpen places (front ++ items) := by
  cases h with
  | outermost hwhole => exact .outermost (hwhole.append hitems)
  | body hfront hrun hstarts hbrace hwhole =>
    simpa using LeavesOpen.body hfront hrun hstarts hbrace (hwhole.append hitems)

/-- The last statement of a container, if there is one. -/
theorem areItems_last (hrun : IsRun last outer run) (hstarts : StartsWithValue run)
    (hmeaningful : run ≠ [] → IsMeaningful outer) : AreItems last run := by
  rcases eq_or_ne run [] with rfl | hne
  · exact .nil
  · exact .unterminated hrun hstarts (hmeaningful hne)

/-- The innermost body is closed, behind a last statement. -/
theorem LeavesOpen.close {place : Nat} {closing : Token} (h : LeavesOpen (place :: places) front)
    (hitems : AreItems false items) (hcloses : closing.kind = .closeCurly) :
    LeavesOpen places (front ++ items ++ [closing]) := by
  cases h with
  | @body _ front outer run opening body hfront hrun hstarts hbrace hbody =>
    have hblock : AreWhole (run ++ opening :: ((body ++ items) ++ closing :: [])) :=
      .block hrun hstarts hbrace (hbody.areItems hitems) hcloses .nil
    simpa using hfront.append hblock

namespace Reader

variable {state next : State} {brackets : List Kind}

/-! ### Runs that the reader follows -/

/-- What ends a run leaves no brackets to follow. -/
theorem advance_eq_none_of_endsRun (h : endsRun token.kind) : advance [] token = none := by
  rw [advance, if_pos]
  by_contra hnot
  exact not_endsRun_iff.mpr hnot h

/-- Of tokens with what ends a run among them, the reader does not follow the brackets. -/
theorem foldlM_advance_eq_none (hrun : IsRun false outer run) (hends : endsRun token.kind)
    (rest : List Token) : (run ++ token :: rest).foldlM advance [] = none := by
  obtain ⟨brackets, hadvance, hnil⟩ := hrun.advance
  obtain rfl := hnil rfl
  rw [List.foldlM_append, hadvance, Option.bind_eq_bind, Option.bind_some, List.foldlM_cons,
    advance_eq_none_of_endsRun hends]
  rfl

/-- **Tokens whose brackets the reader follows are a run.** -/
theorem exists_isRun_of_advance (h : run.foldlM advance [] = some brackets) :
    ∃ outer, IsRun true outer run := by
  rcases exists_isRun run with hrun | ⟨outer, short, mark, rest, rfl, hrun, hends⟩
  · exact hrun
  · rw [foldlM_advance_eq_none hrun hends] at h
    cases h

/-- And if no bracket is open behind them, they are a run up to whatever ends it. -/
theorem exists_isRun_of_level (h : run.foldlM advance [] = some []) :
    ∃ outer, IsRun false outer run := by
  -- with a mark behind it, it is this mark that ends the run
  obtain ⟨final, hfinal⟩ : ∃ mark : Token, endsRun mark.kind := ⟨⟨.semicolon, [';']⟩, rfl⟩
  have hnone : (run ++ [final]).foldlM advance [] = none := by
    rw [List.foldlM_append, h, Option.bind_eq_bind, Option.bind_some, List.foldlM_cons,
      advance_eq_none_of_endsRun hfinal]
    rfl
  rcases exists_isRun (run ++ [final]) with
    ⟨outer, hrun⟩ | ⟨outer, short, mark, rest, hsplit, hrun, hends⟩
  · obtain ⟨brackets, hadvance, -⟩ := hrun.advance
    rw [hnone] at hadvance
    cases hadvance
  · rcases List.eq_nil_or_concat' rest with rfl | ⟨more, other, rfl⟩
    · obtain ⟨rfl, -⟩ := List.append_inj' hsplit rfl
      exact ⟨outer, hrun⟩
    · have hsame : run ++ [final] = (short ++ mark :: more) ++ [other] := by simpa using hsplit
      obtain ⟨rfl, -⟩ := List.append_inj' hsame rfl
      rw [foldlM_advance_eq_none hrun hends] at h
      cases h

/-! ### What has been read -/

/-- Behind how many characters the braces of the open bodies are, the innermost first. -/
def State.braces (state : State) : List Nat :=
  state.outer.map fun pair => pair.1.offset

/-- **What has been read**: tokens behind which an item may start, and the run of the statement that
has begun, if any. -/
structure State.HasRead (state : State) (front run : List Token) : Prop where
  offset : state.offset = lengthOf (front ++ run)
  leaves : LeavesOpen state.braces front
  starts : StartsWithValue run
  follows : ∃ brackets, run.foldlM advance [] = some brackets
  idle : run = [] → state.statement = none
  begun : run ≠ [] → state.statement = some (statementOf (lengthOf front) run)

namespace State.HasRead

/-- Where the brackets of the run are closed, a mark may end it. -/
theorem isLevel_iff (h : state.HasRead front run) :
    state.IsLevel ↔ run.foldlM advance [] = some [] := by
  rcases eq_or_ne run [] with rfl | hne
  · simp [State.IsLevel, h.idle rfl]
  · obtain ⟨brackets, hfollows⟩ := h.follows
    simp [State.IsLevel, h.begun hne, (statementOf_spec hfollows _).1, hfollows]

/-- The statement that has begun can end if its run is a statement. -/
theorem canSettle_iff (h : state.HasRead front run) (hrun : IsRun last outer run)
    (htext : ∀ token ∈ run, token.text ≠ []) :
    state.CanSettle ↔ (run ≠ [] → IsMeaningful outer) := by
  rcases eq_or_ne run [] with hnil | hne
  · simp [State.CanSettle, h.idle hnil, hnil]
  · simp only [State.CanSettle, h.begun hne, Option.mem_def, Option.some.injEq, forall_eq',
      hrun.isMeaningful_iff h.starts htext]
    exact ⟨fun hmeaningful _ => hmeaningful, fun hmeaningful => hmeaningful hne⟩

end State.HasRead

/-! ### One more token -/

theorem offset_step (h : step state token = .ok next) :
    next.offset = state.offset + token.text.length := by
  obtain ⟨-, -, moved, -, rfl⟩ := step_eq_ok.mp h
  rfl

/-- An opening brace is remembered by where it is. -/
theorem braces_step_openCurly (h : step state token = .ok next) (hkind : token.kind = .openCurly)
    (hlevel : state.IsLevel) :
    next.braces = state.offset :: state.braces ∧ next.statement = none := by
  obtain ⟨-, -, moved, hmoved, rfl⟩ := step_eq_ok.mp h
  cases hstatement : state.statement with
  | none =>
    simp only [hstatement, State.between, hkind] at hmoved
    cases hmoved
    exact ⟨rfl, rfl⟩
  | some statement =>
    simp only [hstatement, State.inside, hlevel statement hstatement, hkind] at hmoved
    cases hmoved
    exact ⟨rfl, rfl⟩

namespace State.HasRead

/-- The state behind an item. -/
theorem of_item (h : state.HasRead front run) (hstep : step state token = .ok next)
    (hleaves : LeavesOpen next.braces (front ++ run ++ [token])) (hnone : next.statement = none) :
    next.HasRead (front ++ run ++ [token]) [] where
  offset := by
    rw [offset_step hstep, h.offset, List.append_nil, lengthOf_append _ [token],
      lengthOf_singleton]
  leaves := hleaves
  starts := nofun
  follows := ⟨[], rfl⟩
  idle _ := hnone
  begun hne := absurd rfl hne

/-- A token that goes on with the run. -/
theorem of_advance (h : state.HasRead front run) (hstep : step state token = .ok next)
    (hnext : next.statement = some (statementOf (lengthOf front) (run ++ [token])))
    (hbraces : next.braces = state.braces) (hstarts : StartsWithValue (run ++ [token]))
    (hadvance : (run ++ [token]).foldlM advance [] = some brackets) :
    next.HasRead front (run ++ [token]) where
  offset := by
    rw [offset_step hstep, h.offset, ← List.append_assoc, lengthOf_append _ [token],
      lengthOf_singleton]
  leaves := hbraces ▸ h.leaves
  starts := hstarts
  follows := ⟨brackets, hadvance⟩
  idle hnil := by simp at hnil
  begun _ := hnext

/-- Between two statements: white space, a semicolon or a comment. -/
theorem of_filler (h : state.HasRead front []) (hstep : step state token = .ok next)
    (hkind : token.kind = .space ∨ token.kind = .semicolon ∨ token.kind = .comment) :
    next.HasRead (front ++ [token]) [] := by
  obtain ⟨middle, hmiddle, houter, hnone⟩ :=
    exists_step_filler hkind (isClosed_of_step hstep) (h.idle rfl)
  obtain rfl := Except.ok.inj (hstep.symm.trans hmiddle)
  have hleaves : LeavesOpen next.braces (front ++ [] ++ [token]) := by
    rw [List.append_nil, State.braces, houter]
    exact h.leaves.append (.filler hkind .nil)
  simpa using h.of_item hstep hleaves hnone

/-- At what ends a run: a statement is complete, a body is opened, or one is closed. -/
theorem of_mark (h : state.HasRead front run) (hstep : step state token = .ok next)
    (hlevel : run.foldlM advance [] = some []) (hends : endsRun token.kind)
    (hne : token.kind = .semicolon → run ≠ []) (htext : ∀ token ∈ run, token.text ≠ []) :
    next.HasRead (front ++ run ++ [token]) [] := by
  obtain ⟨outer, hrun⟩ := exists_isRun_of_level hlevel
  have hclosed := isClosed_of_step hstep
  have hsettle := h.canSettle_iff hrun htext
  cases hkind : token.kind with
  | semicolon =>
    -- the run is a statement, and with its semicolon an item
    have hstatement := h.begun (hne hkind)
    have hmeaningful := of_step_semicolon hstep hkind hstatement (h.isLevel_iff.mpr hlevel)
    obtain ⟨middle, hmiddle, houter, hnone⟩ := exists_step_semicolon hkind hclosed hstatement
      (h.isLevel_iff.mpr hlevel) (by simpa [State.CanSettle, hstatement] using hmeaningful)
    obtain rfl := Except.ok.inj (hstep.symm.trans hmiddle)
    refine h.of_item hstep ?_ hnone
    have hwhole : AreWhole (run ++ token :: []) := .terminated hrun h.starts
      ((hrun.isMeaningful_iff h.starts htext _).mp hmeaningful) hkind .nil
    rw [State.braces, houter, List.append_assoc]
    exact h.leaves.append hwhole
  | openCurly =>
    -- one more body is open, remembered by where its brace is
    obtain ⟨hbraces, hnone⟩ := braces_step_openCurly hstep hkind (h.isLevel_iff.mpr hlevel)
    refine h.of_item hstep ?_ hnone
    rw [hbraces, h.offset]
    exact .body h.leaves hrun h.starts hkind .nil
  | closeCurly =>
    obtain ⟨hcan, pair, around, houter⟩ := of_step_closeCurly hstep hkind (h.isLevel_iff.mpr hlevel)
    obtain ⟨middle, hmiddle, hsame, hnone⟩ :=
      exists_step_closeCurly hkind hclosed (h.isLevel_iff.mpr hlevel) hcan houter
    obtain rfl := Except.ok.inj (hstep.symm.trans hmiddle)
    refine h.of_item hstep ?_ hnone
    -- what was read since the innermost brace becomes the body of its block
    have hleaves := h.leaves
    rw [State.braces, houter, List.map_cons] at hleaves
    rw [State.braces, hsame]
    exact hleaves.close (areItems_last hrun h.starts (hsettle.mp hcan)) hkind
  | _ => simp [hkind, endsRun] at hends

/-- Where no statement has begun, a token that may begin one begins a run. -/
theorem of_begins (h : state.HasRead front []) (hstep : Reader.step state token = .ok next)
    (hends : ¬endsRun token.kind) (hbegins : beginsStatement token.kind) :
    next.HasRead front [token] := by
  have hsteps := step_of_beginsStatement (h.idle rfl) (isClosed_of_step hstep) hbegins
  obtain rfl := Except.ok.inj (hstep.symm.trans hsteps)
  have hoffset : state.offset = lengthOf front := by rw [h.offset, List.append_nil]
  have hfollows : ([] ++ [token]).foldlM advance [] = some (closerOf? token.kind).toList := by
    rw [List.nil_append, List.foldlM_cons, advance_of_not_endsRun hends]
    rfl
  refine h.of_advance hstep ?_ rfl ?_ hfollows
  · rw [hoffset]
    rfl
  · rintro other ⟨⟩
    exact hbegins

/-- A run goes on with a token that does not end it. -/
theorem of_follows (h : state.HasRead front run) (hstep : Reader.step state token = .ok next)
    (hne : run ≠ []) (hfollows : run.foldlM advance [] = some brackets) {inner : List Kind}
    (hadvance : advance brackets token = some inner) : next.HasRead front (run ++ [token]) := by
  have hbrackets := (statementOf_spec hfollows (lengthOf front)).1
  have hsteps := step_of_advance (h.begun hne) (isClosed_of_step hstep) (hbrackets ▸ hadvance)
  obtain rfl := Except.ok.inj (hstep.symm.trans hsteps)
  have hmore : (run ++ [token]).foldlM advance [] = some inner :=
    foldlM_advance_append_singleton.mpr ⟨brackets, hfollows, hadvance⟩
  refine h.of_advance hstep ?_ rfl ?_ hmore
  · rw [statementOf_append_singleton]
  · obtain ⟨first, rest, rfl⟩ := List.exists_cons_of_ne_nil hne
    exact h.starts

/-- **What one step reads.** -/
theorem step (h : state.HasRead front run) (hstep : Reader.step state token = .ok next)
    (htext : ∀ token ∈ run, token.text ≠ []) :
    ∃ before rest, front ++ run ++ [token] = before ++ rest ∧ next.HasRead before rest := by
  -- no statement has begun, and the token is an item, ends one, or begins a run; or a run goes on
  -- with the token as long as the token does not end it
  rcases eq_or_ne run [] with rfl | hne
  · by_cases hfiller : token.kind = .space ∨ token.kind = .semicolon ∨ token.kind = .comment
    · exact ⟨_, [], by simp, h.of_filler hstep hfiller⟩
    by_cases hends : endsRun token.kind
    · have hsemicolon : token.kind = .semicolon → ([] : List Token) ≠ [] :=
        fun hkind => absurd (.inr (.inl hkind)) hfiller
      exact ⟨_, [], (List.append_nil _).symm, h.of_mark hstep rfl hends hsemicolon htext⟩
    · have hbegins := beginsStatement_of_not_endsRun hends hfiller
      exact ⟨front, [token], by simp, h.of_begins hstep hends hbegins⟩
  · obtain ⟨brackets, hfollows⟩ := h.follows
    cases hadvance : advance brackets token with
    | none =>
      cases brackets with
      | cons closer around => cases hadvance
      | nil =>
        have hends : endsRun token.kind := by
          rcases kind_of_advance_eq_none hadvance with hkind | hkind | hkind <;>
            simp [hkind, endsRun]
        exact ⟨_, [], (List.append_nil _).symm,
          h.of_mark hstep hfollows hends (fun _ => hne) htext⟩
    | some inner =>
      exact ⟨front, run ++ [token], List.append_assoc .., h.of_follows hstep hne hfollows hadvance⟩

end State.HasRead

/-- **What a run of the reader has read**, from the start of a text on. -/
theorem exists_hasRead (h : toks.foldlM step {} = .ok state)
    (htext : ∀ token ∈ toks, token.text ≠ []) :
    ∃ front run, toks = front ++ run ∧ state.HasRead front run := by
  induction toks using List.reverseRecOn generalizing state with
  | nil =>
    cases h
    exact ⟨[], [], rfl, rfl, .outermost .nil, nofun, ⟨[], rfl⟩, fun _ => rfl,
      fun hne => absurd rfl hne⟩
  | append_singleton toks token ih =>
    rw [List.foldlM_append] at h
    obtain ⟨middle, hmiddle, h⟩ := bind_eq_ok.mp h
    obtain ⟨next, hnext, h⟩ := bind_eq_ok.mp h
    cases h
    rw [List.forall_mem_append] at htext
    obtain ⟨front, run, rfl, hread⟩ := ih hmiddle htext.1
    exact hread.step hnext (List.forall_mem_append.mp htext.1).2

end Reader

end Restyle.Css
