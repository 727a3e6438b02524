import Restyle.Proofs.Css.FirstNode
import Restyle.Proofs.Css.Grammar

/-!
# What is read as a style sheet

The reader accepts the sequences of items and nothing else
(`Restyle.Css.Reader.exists_ofTokens_iff`), if all strings and comments are closed as far as it
can tell.

That items are read follows them one by one: each leaves the reader in the container where it
was, with a statement at most that can end there. For the other direction, what is left of a
text while bodies are open has to close them all (`Restyle.Css.Reader.Completes`), and the
reader is followed from one item to the next: a run is cut off the text in one go, and what
ends it says what item it was.
-/

namespace Restyle.Css.Reader

variable {last : Bool} {state next : State} {token : Token} {statement : Statement}
  {toks run outer : List Token}

/-! ### Statements that can end -/

/-- A statement without a body is a node exactly if it has a keyword or a colon. -/
theorem exists_nodeOf_iff (before trailing : List Char) :
    (∃ node, nodeOf before statement trailing = .ok node) ↔
      statement.keyword.isSome ∨ statement.colon.isSome := by
  rw [nodeOf]
  cases statement.keyword <;> cases statement.colon <;> simp

/-- The statement that has begun, if any, has its brackets closed. -/
def State.IsLevel (state : State) : Prop :=
  ∀ statement ∈ state.statement, statement.brackets = []

/-- The statement that has begun, if any, is one that can end without a body. -/
def State.CanSettle (state : State) : Prop :=
  ∀ statement ∈ state.statement, statement.keyword.isSome ∨ statement.colon.isSome

theorem exists_settle_iff : (∃ next, state.settle = .ok next) ↔ state.CanSettle := by
  rw [State.settle, State.CanSettle]
  cases state.statement with
  | none => simp
  | some statement =>
    simp only [Option.mem_def, Option.some.injEq, forall_eq']
    rw [← exists_nodeOf_iff state.before []]
    constructor
    · rintro ⟨next, h⟩
      obtain ⟨node, hnode, -⟩ := bind_eq_ok.mp h
      exact ⟨node, hnode⟩
    · rintro ⟨node, hnode⟩
      exact ⟨_, bind_eq_ok.mpr ⟨node, hnode, rfl⟩⟩

/-- Where a statement could end, it is gone, and the bodies that are open are the same. -/
theorem settle_spec (h : state.settle = .ok next) :
    next.outer = state.outer ∧ next.statement = none := by
  refine ⟨(outer_settle h).1, ?_⟩
  rw [State.settle] at h
  cases hstatement : state.statement with
  | none =>
    rw [hstatement] at h
    cases h
    exact hstatement
  | some statement =>
    rw [hstatement] at h
    obtain ⟨node, -, h⟩ := bind_eq_ok.mp h
    cases h
    rfl

/-! ### One token -/

/-- What a token does where it stands: between two statements, or inside one. -/
def State.act (state : State) (token : Token) : Except Fault State :=
  match state.statement with
  | none => state.between token
  | some statement => state.inside statement token

/-- A step is what the token does, apart from counting its characters. -/
theorem exists_step_iff {P : List (Opening × Frame) → Option Statement → Prop}
    (hclosed : token.IsClosed) :
    (∃ next, step state token = .ok next ∧ P next.outer next.statement) ↔
      ∃ moved, state.act token = .ok moved ∧ P moved.outer moved.statement := by
  constructor
  · rintro ⟨next, h, hnext⟩
    obtain ⟨-, -, moved, hmoved, rfl⟩ := step_eq_ok.mp h
    exact ⟨moved, hmoved, hnext⟩
  · rintro ⟨moved, h, hmoved⟩
    exact ⟨_, step_eq_ok.mpr ⟨hclosed.1, hclosed.2, moved, h, rfl⟩, hmoved⟩

theorem exists_act_of_step (h : step state token = .ok next) :
    ∃ moved, state.act token = .ok moved := by
  obtain ⟨-, -, moved, hmoved, -⟩ := step_eq_ok.mp h
  exact ⟨moved, hmoved⟩

/-- White space, a semicolon or a comment between two statements. -/
theorem exists_step_filler
    (hkind : token.kind = .space ∨ token.kind = .semicolon ∨ token.kind = .comment)
    (hclosed : token.IsClosed) (hnone : state.statement = none) :
    ∃ next, step state token = .ok next ∧ next.outer = state.outer ∧ next.statement = none := by
  refine (exists_step_iff hclosed (P := fun outer statement => outer = _ ∧ statement = _)).mpr ?_
  rw [State.act, hnone, State.between]
  rcases hkind with hkind | hkind | hkind <;> rw [hkind] <;> exact ⟨_, rfl, rfl, hnone⟩

/-- An opening brace opens a body. -/
theorem exists_step_openCurly (hkind : token.kind = .openCurly) (hclosed : token.IsClosed)
    (hlevel : state.IsLevel) :
    ∃ next, step state token = .ok next ∧ (∃ pair, next.outer = pair :: state.outer) ∧
      next.statement = none := by
  refine (exists_step_iff hclosed (P := fun outer statement =>
    (∃ pair, outer = pair :: state.outer) ∧ statement = _)).mpr ?_
  rw [State.act]
  cases hstatement : state.statement with
  | none =>
    simp only [State.between, hkind]
    exact ⟨_, rfl, ⟨_, rfl⟩, rfl⟩
  | some statement =>
    simp only [State.inside, hlevel statement hstatement, hkind]
    exact ⟨_, rfl, ⟨_, rfl⟩, rfl⟩

/-- A closing brace ends the statement that has begun, and then the body. -/
theorem act_closeCurly (hkind : token.kind = .closeCurly) (hlevel : state.IsLevel) :
    state.act token = (do (← state.settle).closeBody) := by
  rw [State.act]
  cases hstatement : state.statement with
  | none =>
    simp only [State.between, hkind, State.settle, hstatement]
    rfl
  | some statement => simp only [State.inside, hlevel statement hstatement, hkind]

/-- A closing brace is read where a body is open and the statement can end. -/
theorem exists_step_closeCurly (hkind : token.kind = .closeCurly) (hclosed : token.IsClosed)
    (hlevel : state.IsLevel) (hsettle : state.CanSettle) {pair : Opening × Frame}
    {around : List (Opening × Frame)} (houter : state.outer = pair :: around) :
    ∃ next, step state token = .ok next ∧ next.outer = around ∧ next.statement = none := by
  obtain ⟨settled, hsettled⟩ := exists_settle_iff.mpr hsettle
  obtain ⟨hsame, hnone⟩ := settle_spec hsettled
  refine (exists_step_iff hclosed (P := fun outer statement => outer = _ ∧ statement = _)).mpr ?_
  rw [act_closeCurly hkind hlevel]
  have hclose : ∃ moved, settled.closeBody = .ok moved ∧ moved.outer = around ∧
      moved.statement = none := by
    rw [State.closeBody, hsame, houter]
    exact ⟨_, rfl, rfl, hnone⟩
  obtain ⟨moved, hmoved, hspec⟩ := hclose
  exact ⟨moved, bind_eq_ok.mpr ⟨settled, hsettled, hmoved⟩, hspec⟩

/-- And nowhere else. -/
theorem of_step_closeCurly (h : step state token = .ok next) (hkind : token.kind = .closeCurly)
    (hlevel : state.IsLevel) : state.CanSettle ∧ ∃ pair around, state.outer = pair :: around := by
  obtain ⟨moved, hmoved⟩ := exists_act_of_step h
  rw [act_closeCurly hkind hlevel] at hmoved
  obtain ⟨settled, hsettled, hclose⟩ := bind_eq_ok.mp hmoved
  refine ⟨exists_settle_iff.mp ⟨settled, hsettled⟩, ?_⟩
  rw [← (settle_spec hsettled).1]
  cases houter : settled.outer with
  | nil => exact absurd hclose (closeBody_ne_ok houter)
  | cons pair around => exact ⟨pair, around, rfl⟩

/-- A semicolon ends the statement that has begun. -/
theorem act_semicolon (hkind : token.kind = .semicolon)
    (hstatement : state.statement = some statement) (hlevel : state.IsLevel) :
    state.act token = state.terminate statement := by
  rw [State.act, hstatement]
  simp only [State.inside, hlevel statement hstatement, hkind]

theorem exists_step_semicolon (hkind : token.kind = .semicolon) (hclosed : token.IsClosed)
    (hstatement : state.statement = some statement) (hlevel : state.IsLevel)
    (hsettle : state.CanSettle) :
    ∃ next, step state token = .ok next ∧ next.outer = state.outer ∧ next.statement = none := by
  obtain ⟨node, hnode⟩ := (exists_nodeOf_iff _ _).mpr (hsettle statement hstatement)
  refine (exists_step_iff hclosed (P := fun outer statement => outer = _ ∧ statement = _)).mpr ?_
  rw [act_semicolon hkind hstatement hlevel]
  exact ⟨_, bind_eq_ok.mpr ⟨node, hnode, rfl⟩, rfl, rfl⟩

theorem of_step_semicolon (h : step state token = .ok next) (hkind : token.kind = .semicolon)
    (hstatement : state.statement = some statement) (hlevel : state.IsLevel) :
    statement.keyword.isSome ∨ statement.colon.isSome := by
  obtain ⟨moved, hmoved⟩ := exists_act_of_step h
  rw [act_semicolon hkind hstatement hlevel] at hmoved
  obtain ⟨node, hnode, -⟩ := bind_eq_ok.mp hmoved
  exact (exists_nodeOf_iff _ _).mp ⟨node, hnode⟩

/-! ### One run -/

/-- **The state behind a run**: in the same container, with the run as its statement. -/
structure IsBehind (last : Bool) (run outer : List Token) (state next : State) : Prop where
  around : next.outer = state.outer
  none : next.statement = none ↔ run = []
  level : last = false → next.IsLevel
  settle : ∀ statement ∈ next.statement,
    (statement.keyword.isSome ∨ statement.colon.isSome ↔ IsMeaningful outer)

theorem exists_steps_run (h : IsRun last outer run) (hstarts : StartsWithValue run)
    (hclosed : ∀ token ∈ run, token.IsClosed) (htext : ∀ token ∈ run, token.text ≠ [])
    (hnone : state.statement = none) :
    ∃ next, run.foldlM step state = .ok next ∧ IsBehind last run outer state next := by
  cases hrun : run with
  | nil =>
    exact ⟨state, rfl, rfl, by simp [hnone], fun _ => by simp [State.IsLevel, hnone],
      by simp [hnone]⟩
  | cons token rest =>
    obtain ⟨brackets, hadvance, hbrackets⟩ := h.advance
    have hbegins : beginsStatement token.kind := hstarts token (by rw [hrun]; rfl)
    have hsteps := steps_of_begins ⟨token, rest, hrun, hbegins⟩ hclosed hadvance hnone
    rw [← hrun]
    refine ⟨_, hsteps, rfl, by simp [hrun], ?_, ?_⟩
    · rintro hlast statement ⟨⟩
      rw [(statementOf_spec hadvance _).1, hbrackets hlast]
    · rintro statement ⟨⟩
      exact h.isMeaningful_iff hstarts htext _

/-! ### Items are read -/

theorem foldlM_append_of_ok {xs ys : List Token} (h : xs.foldlM step state = .ok next) :
    (xs ++ ys).foldlM step state = ys.foldlM step next := by
  rw [List.foldlM_append, h]
  rfl

theorem foldlM_cons_of_ok (h : step state token = .ok next) :
    (token :: toks).foldlM step state = toks.foldlM step next := by
  rw [List.foldlM_cons, h]
  rfl

/-- **Items are read**, and leave the reader in the container where it was. -/
theorem exists_steps_items (h : AreItems last toks) (hclosed : ∀ token ∈ toks, token.IsClosed)
    (htext : ∀ token ∈ toks, token.text ≠ []) (hnone : state.statement = none) :
    ∃ next, toks.foldlM step state = .ok next ∧ next.outer = state.outer ∧ next.CanSettle ∧
      (last = false → next.IsLevel) := by
  induction h generalizing state with
  | nil =>
    exact ⟨state, rfl, rfl, by simp [State.CanSettle, hnone],
      fun _ => by simp [State.IsLevel, hnone]⟩
  | filler hkind _ ih =>
    -- a token that is skipped
    simp only [List.forall_mem_cons] at hclosed htext
    obtain ⟨middle, hmiddle, houter, hstatement⟩ := exists_step_filler hkind hclosed.1 hnone
    rw [foldlM_cons_of_ok hmiddle, ← houter]
    exact ih hclosed.2 htext.2 hstatement
  | block hrun hstarts hopens _ hcloses _ ihbody ihrest =>
    simp only [List.forall_mem_append, List.forall_mem_cons] at hclosed htext
    obtain ⟨hclosedRun, hclosedOpening, hclosedBody, hclosedClosing, hclosedRest⟩ := hclosed
    obtain ⟨htextRun, -, htextBody, -, htextRest⟩ := htext
    -- the heading, the brace that opens the body, its items, and the brace that closes it
    obtain ⟨ahead, hahead, hbehind⟩ := exists_steps_run hrun hstarts hclosedRun htextRun hnone
    obtain ⟨opened, hopened, ⟨pair, houter⟩, hstatement⟩ :=
      exists_step_openCurly hopens hclosedOpening (hbehind.level rfl)
    obtain ⟨filled, hfilled, hsame, hsettle, hlevel⟩ := ihbody hclosedBody htextBody hstatement
    obtain ⟨closed, hclosed, haround, hstatement⟩ := exists_step_closeCurly hcloses hclosedClosing
      (hlevel rfl) hsettle (hsame.trans houter)
    rw [foldlM_append_of_ok hahead, foldlM_cons_of_ok hopened, foldlM_append_of_ok hfilled,
      foldlM_cons_of_ok hclosed, ← hbehind.around, ← haround]
    exact ihrest hclosedRest htextRest hstatement
  | @terminated _ _ run mark rest hrun hstarts hmeaningful hkind _ ih =>
    simp only [List.forall_mem_append, List.forall_mem_cons] at hclosed htext
    obtain ⟨ahead, hahead, hbehind⟩ := exists_steps_run hrun hstarts hclosed.1 htext.1 hnone
    -- a run that means something is not empty, so there is a statement for the semicolon to end
    have hsome : ahead.statement ≠ none := by
      rw [Ne, hbehind.none]
      rintro rfl
      cases hrun
      simp [IsMeaningful] at hmeaningful
    obtain ⟨statement, hstatement⟩ := Option.ne_none_iff_exists'.mp hsome
    obtain ⟨ended, hended, houter, hstatement⟩ := exists_step_semicolon hkind hclosed.2.1 hstatement
      (hbehind.level rfl) fun statement hmem => (hbehind.settle statement hmem).mpr hmeaningful
    rw [foldlM_append_of_ok hahead, foldlM_cons_of_ok hended, ← hbehind.around, ← houter]
    exact ih hclosed.2.2 htext.2.2 hstatement
  | unterminated hrun hstarts hmeaningful =>
    obtain ⟨ahead, hahead, hbehind⟩ := exists_steps_run hrun hstarts hclosed htext hnone
    exact ⟨ahead, hahead, hbehind.around,
      fun statement hmem => (hbehind.settle statement hmem).mpr hmeaningful, hbehind.level⟩

/-! ### What is read are items -/

/-- **What completes a style sheet inside open bodies**: items up to the brace that closes the
innermost one, and so on outwards. -/
def Completes : (depth : Nat) → List Token → Prop
  | 0, toks => AreItems true toks
  | depth + 1, toks => ∃ body closing rest, toks = body ++ closing :: rest ∧
      AreItems false body ∧ closing.kind = .closeCurly ∧ Completes depth rest

/-- One more item in front. -/
theorem Completes.prepend {depth : Nat} (h : Completes depth toks) (front : List Token)
    (hitem : ∀ {last rest}, AreItems last rest → AreItems last (front ++ rest)) :
    Completes depth (front ++ toks) := by
  cases depth with
  | zero => exact hitem h
  | succ depth =>
    obtain ⟨body, closing, rest, rfl, hbody, hrest⟩ := h
    exact ⟨front ++ body, closing, rest, by simp, hitem hbody, hrest⟩

/-- At the end of a text, all bodies are closed and the last statement can end. -/
theorem of_finish {sheet : Sheet} (h : finish state = .ok sheet) :
    state.outer = [] ∧ state.CanSettle := by
  obtain ⟨settled, hsettled, -⟩ := bind_eq_ok.mp h
  exact ⟨(nodes_finish h).1, exists_settle_iff.mp ⟨settled, hsettled⟩⟩

theorem exists_finish (houter : state.outer = []) (hsettle : state.CanSettle) :
    ∃ sheet, finish state = .ok sheet := by
  obtain ⟨settled, hsettled⟩ := exists_settle_iff.mpr hsettle
  have hnil : settled.outer = [] := (settle_spec hsettled).1.trans houter
  refine ⟨⟨settled.frame.nodes, String.ofList settled.before, settled.frame.semicolon⟩,
    bind_eq_ok.mpr ⟨settled, hsettled, ?_⟩⟩
  rw [hnil]
  rfl

theorem beginsStatement_of_not_endsRun {kind : Kind} (h : ¬endsRun kind)
    (hfiller : ¬(kind = .space ∨ kind = .semicolon ∨ kind = .comment)) : beginsStatement kind := by
  cases kind <;> simp_all [beginsStatement, endsRun]

/-- A run that is no filler starts with a value. -/
theorem startsWithValue_of_not_filler (h : IsRun last outer run)
    (hfiller : ∀ token ∈ run.head?,
      ¬(token.kind = .space ∨ token.kind = .semicolon ∨ token.kind = .comment)) :
    StartsWithValue run := by
  intro token htoken
  refine beginsStatement_of_not_endsRun ?_ (hfiller token htoken)
  cases h <;> simp_all

/-- **One statement more, or one body less**: what completes a style sheet behind the mark that
ends a run does so with the run and the mark in front. -/
theorem completes_of_mark {ahead : State} {mark : Token} (hrun : IsRun false outer run)
    (hstarts : StartsWithValue run) (hbehind : IsBehind false run outer state ahead)
    (hends : endsRun mark.kind) (hnonempty : mark.kind = .semicolon → run ≠ [])
    (hclosed : mark.IsClosed) (hnext : step ahead mark = .ok next)
    (hrest : next.statement = none → Completes next.outer.length toks) :
    Completes state.outer.length (run ++ mark :: toks) := by
  have hlevel := hbehind.level rfl
  have hmeaningful {statement : Statement} (hstatement : ahead.statement = some statement)
      (h : statement.keyword.isSome ∨ statement.colon.isSome) : IsMeaningful outer :=
    (hbehind.settle statement hstatement).mp h
  rw [← hbehind.around]
  cases hkind : mark.kind with
  | semicolon =>
    -- the run is a statement, and the semicolon ends it
    obtain ⟨statement, hstatement⟩ := Option.ne_none_iff_exists'.mp
      (mt hbehind.none.mp (hnonempty hkind))
    have hsome := of_step_semicolon hnext hkind hstatement hlevel
    obtain ⟨middle, hmiddle, houter, hnone⟩ := exists_step_semicolon hkind hclosed hstatement
      hlevel (by simpa [State.CanSettle, hstatement] using hsome)
    obtain rfl := Except.ok.inj (hnext.symm.trans hmiddle)
    rw [← houter, ← List.singleton_append, ← List.append_assoc]
    refine (hrest hnone).prepend _ fun hitems => ?_
    rw [List.append_assoc]
    exact .terminated hrun hstarts (hmeaningful hstatement hsome) hkind hitems
  | openCurly =>
    obtain ⟨middle, hmiddle, ⟨pair, houter⟩, hnone⟩ := exists_step_openCurly hkind hclosed hlevel
    obtain rfl := Except.ok.inj (hnext.symm.trans hmiddle)
    -- what follows closes the body first, and that body with its heading is an item
    have hbody := hrest hnone
    rw [houter] at hbody
    obtain ⟨body, closing, rest, rfl, hbody, hcloses, hrest⟩ := hbody
    have hitem := hrest.prepend (run ++ mark :: (body ++ [closing])) fun hitems => by
      simpa using AreItems.block hrun hstarts hkind hbody hcloses hitems
    simpa using hitem
  | closeCurly =>
    obtain ⟨hsettle, pair, around, houter⟩ := of_step_closeCurly hnext hkind hlevel
    obtain ⟨middle, hmiddle, hsame, hnone⟩ :=
      exists_step_closeCurly hkind hclosed hlevel hsettle houter
    obtain rfl := Except.ok.inj (hnext.symm.trans hmiddle)
    rw [houter]
    refine ⟨run, mark, toks, rfl, ?_, hkind, hsame ▸ hrest hnone⟩
    -- the last statement of the body, if there is one, does without a semicolon
    cases hstatement : ahead.statement with
    | none =>
      rw [hbehind.none.mp hstatement]
      exact .nil
    | some statement =>
      exact .unterminated hrun hstarts (hmeaningful hstatement (hsettle statement hstatement))
  | _ => simp [hkind, endsRun] at hends

/-- A run up to the end of the text is a statement that can end there. -/
theorem completes_of_run {final : State} {sheet : Sheet} (hrun : IsRun true outer run)
    (hstarts : StartsWithValue run) (hnonempty : run ≠ [])
    (hbehind : IsBehind true run outer state final) (hfinish : finish final = .ok sheet) :
    Completes state.outer.length run := by
  obtain ⟨houter, hsettle⟩ := of_finish hfinish
  rw [← hbehind.around, houter]
  obtain ⟨statement, hstatement⟩ := Option.ne_none_iff_exists'.mp (mt hbehind.none.mp hnonempty)
  exact .unterminated hrun hstarts
    ((hbehind.settle statement hstatement).mp (hsettle statement hstatement))

/-- **What is read completes the style sheet.** -/
theorem completes_of_steps {final : State} {sheet : Sheet}
    (hsteps : toks.foldlM step state = .ok final) (hfinish : finish final = .ok sheet)
    (htext : ∀ token ∈ toks, token.text ≠ []) (hnone : state.statement = none) :
    Completes state.outer.length toks := by
  have hclosed := closed_of_steps hsteps
  induction hlength : toks.length using Nat.strong_induction_on generalizing toks state with
  | _ n ih =>
    subst hlength
    cases toks with
    | nil =>
      cases hsteps
      rw [(of_finish hfinish).1]
      exact .nil
    | cons token rest =>
      by_cases hfiller : token.kind = .space ∨ token.kind = .semicolon ∨ token.kind = .comment
      · simp only [List.forall_mem_cons] at hclosed htext
        obtain ⟨next, hnext, houter, hstatement⟩ := exists_step_filler hfiller hclosed.1 hnone
        rw [foldlM_cons_of_ok hnext] at hsteps
        rw [← houter]
        have hrest := ih rest.length (by simp) hsteps htext.2 hstatement hclosed.2 rfl
        exact hrest.prepend [token] fun hitems => .filler hfiller hitems
      -- the next item is a statement, or the container ends; either way a run comes first
      rcases exists_isRun (token :: rest) with
        ⟨outer, hrun⟩ | ⟨outer, run, mark, behind, hsplit, hrun, hmark⟩
      · have hstarts : StartsWithValue (token :: rest) :=
          startsWithValue_of_not_filler hrun (by simpa using hfiller)
        obtain ⟨ahead, hahead, hbehind⟩ := exists_steps_run hrun hstarts hclosed htext hnone
        obtain rfl := Except.ok.inj (hahead.symm.trans hsteps)
        exact completes_of_run hrun hstarts (List.cons_ne_nil _ _) hbehind hfinish
      · rw [hsplit] at hsteps hclosed htext ⊢
        have hstarts : StartsWithValue run := by
          refine startsWithValue_of_not_filler hrun fun first hfirst => ?_
          obtain ⟨more, rfl⟩ := List.head?_eq_some_iff.mp hfirst
          rwa [← (List.cons.inj hsplit).1]
        have hnonempty : mark.kind = .semicolon → run ≠ [] := by
          rintro hkind rfl
          obtain rfl : token = mark := (List.cons.inj hsplit).1
          exact hfiller (.inr (.inl hkind))
        simp only [List.forall_mem_append, List.forall_mem_cons] at hclosed htext
        obtain ⟨ahead, hahead, hbehind⟩ := exists_steps_run hrun hstarts hclosed.1 htext.1 hnone
        rw [foldlM_append_of_ok hahead, List.foldlM_cons] at hsteps
        obtain ⟨next, hnext, hsteps⟩ := bind_eq_ok.mp hsteps
        have hshorter : behind.length < (token :: rest).length := by
          rw [hsplit, List.length_append, List.length_cons]
          omega
        exact completes_of_mark hrun hstarts hbehind hmark hnonempty hclosed.2.1 hnext
          fun hstatement => ih behind.length hshorter hsteps htext.2.2 hstatement hclosed.2.2 rfl

/-- **The reader accepts the sequences of items**, if they are closed, **and nothing else**. -/
theorem exists_ofTokens_iff (htext : ∀ token ∈ toks, token.text ≠ []) :
    (∃ sheet, ofTokens toks = .ok sheet) ↔
      AreItems true toks ∧ ∀ token ∈ toks, token.IsClosed := by
  constructor
  · rintro ⟨sheet, h⟩
    obtain ⟨final, hsteps, hfinish⟩ := bind_eq_ok.mp h
    exact ⟨completes_of_steps hsteps hfinish htext rfl, closed_of_steps hsteps⟩
  · rintro ⟨hitems, hclosed⟩
    have hstart : ({} : State).statement = none := rfl
    obtain ⟨final, hsteps, houter, hsettle, -⟩ :=
      exists_steps_items hitems hclosed htext hstart
    obtain ⟨sheet, hfinish⟩ := exists_finish houter hsettle
    exact ⟨sheet, bind_eq_ok.mpr ⟨final, hsteps, hfinish⟩⟩

end Restyle.Css.Reader
