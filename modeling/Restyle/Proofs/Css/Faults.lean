import Restyle.Proofs.Css.Closing
import Restyle.Proofs.Css.Location
import Restyle.Proofs.Css.Progress

/-!
# What an error points at

The reader stops where it cannot go on, and what is wrong may be far in front of that: that a body
is open shows at the end of the text only, and that a statement is none where it ends. So each
message comes with a place of its own. `Restyle.Css.Offends` says what has to be found there, in
terms of the grammar alone. The body of a statement is what counts as a block, at whatever depth; a
brace inside brackets opens none, while strings and comments have to be closed there as everywhere.

What has been read up to the place where the reader stops is known
(`Restyle.Css.Reader.exists_hasRead`). It remains to see what a token can find wrong with it
(`Restyle.Css.Reader.State.HasRead.isRight_of_act`), or the end of the text
(`Restyle.Css.Reader.State.HasRead.isRight_of_finish`). The result is
`Restyle.Css.offends_ofString`: the message of an error is one of five, and what it names stands at
the line and the column of the error.
-/

namespace Restyle.Css

/-- **What a message says of a text**: what stands behind the tokens in front. -/
inductive Offends : (message : String) → (front rest : List Token) → Prop
  /-- The opening quote of a string without its closing one. -/
  | unclosedString {front token rest quote inside} : token.text = quote :: inside →
      quote = '"' ∨ quote = '\'' →
      token.kind = .brokenString ∨ token.kind = .string ∧ closesString quote inside = false →
      Offends "Unclosed string" front (token :: rest)
  /-- The opening mark of a comment without its closing one. -/
  | unclosedComment {front token rest inside} : token.kind = .comment →
      token.text = '/' :: '*' :: inside → ¬['*', '/'] <:+ inside →
      Offends "Unclosed comment" front (token :: rest)
  /-- A closing brace behind items all of whose bodies are closed. -/
  | unexpectedClose {front token rest} : AreItems false front → token.kind = .closeCurly →
      Offends "Unexpected \x7d" front (token :: rest)
  /-- The opening brace of a body. Its items reach to the end of the text, the bodies among them
  being closed. -/
  | unclosedBlock {braces front outer run brace body} : LeavesOpen braces front →
      IsRun false outer run → StartsWithValue run → brace.kind = .openCurly →
      AreItems true body → Offends "Unclosed block" (front ++ run) (brace :: body)
  /-- A statement without a body that is none, up to the mark that ends it. -/
  | unknownWord {braces front outer run mark rest} : LeavesOpen braces front →
      IsRun false outer run → StartsWithValue run → run ≠ [] → ¬IsMeaningful outer →
      mark.kind = .semicolon ∨ mark.kind = .closeCurly →
      Offends "Unknown word" front (run ++ mark :: rest)
  /-- The same at the end of the text. -/
  | unknownLast {braces front outer run} : LeavesOpen braces front → IsRun true outer run →
      StartsWithValue run → run ≠ [] → ¬IsMeaningful outer → Offends "Unknown word" front run

variable {token : Token} {toks front run : List Token} {cs : List Char}

/-! ### Strings and comments -/

theorem offends_unclosedString (htoken : token ∈ tokens cs) (h : token.isUnclosedString)
    (front rest : List Token) : Offends "Unclosed string" front (token :: rest) := by
  have hquoted : isQuoted token.kind := by
    unfold Token.isUnclosedString at h
    split at h <;> simp_all [isQuoted]
  obtain ⟨quote, inside, htext, hquote⟩ := exists_quote htoken hquoted
  obtain ⟨kind, text⟩ := token
  obtain rfl : text = quote :: inside := htext
  cases kind with
  | brokenString => exact .unclosedString rfl hquote (.inl rfl)
  | string =>
    refine .unclosedString rfl hquote (.inr ⟨rfl, ?_⟩)
    by_contra hcloses
    have hclosed := isClosed_string_iff.mpr
      (getLast?_of_closesString (eq_true_of_ne_false hcloses))
    exact absurd hclosed.1 (by rw [h]; decide)
  | _ => cases hquoted

theorem offends_unclosedComment (hfits : token.Fits) (h : token.isUnclosedComment)
    (front rest : List Token) : Offends "Unclosed comment" front (token :: rest) := by
  have hkind : token.kind = .comment := by
    unfold Token.isUnclosedComment at h
    simp_all
  obtain ⟨kind, text⟩ := token
  obtain rfl : kind = .comment := hkind
  obtain ⟨inside, rfl⟩ : ∃ inside, text = '/' :: '*' :: inside := hfits
  refine .unclosedComment rfl rfl ?_
  rintro ⟨front, hinside⟩
  have hclosed := isClosed_comment_iff.mpr ⟨front, hinside.symm⟩
  exact absurd hclosed.2 (by rw [h]; decide)

namespace Reader

variable {last : Bool} {state : State} {fault : Fault} {outer : List Token}

/-! ### Where the reader stops -/

theorem bind_eq_error {ε α β : Type} {x : Except ε α} {f : α → Except ε β} {error : ε} :
    (x >>= f) = .error error ↔ x = .error error ∨ ∃ a, x = .ok a ∧ f a = .error error := by
  cases x with
  | error e => simp [bind, Except.bind]
  | ok a => simp [bind, Except.bind]

/-- **The first token that is not read.** -/
theorem exists_of_steps_eq_error (h : toks.foldlM step state = .error fault) :
    ∃ front token rest middle, toks = front ++ token :: rest ∧
      front.foldlM step state = .ok middle ∧ step middle token = .error fault := by
  induction toks generalizing state with
  | nil => cases h
  | cons token rest ih =>
    rw [List.foldlM_cons] at h
    rcases bind_eq_error.mp h with h | ⟨next, hnext, h⟩
    · exact ⟨[], token, rest, state, rfl, rfl, h⟩
    · obtain ⟨front, other, rest, middle, rfl, hfront, hother⟩ := ih h
      exact ⟨token :: front, other, rest, middle, rfl, by rw [foldlM_cons_of_ok hnext, hfront],
        hother⟩

theorem step_eq_error (h : step state token = .error fault) :
    token.isUnclosedString ∧ fault = ⟨.unclosedString, state.offset⟩ ∨
      token.isUnclosedComment ∧ fault = ⟨.unclosedComment, state.offset⟩ ∨
      state.act token = .error fault := by
  unfold step at h
  cases hstring : token.isUnclosedString
  · cases hcomment : token.isUnclosedComment
    · simp only [hstring, hcomment, Bool.false_eq_true, if_false] at h
      refine .inr (.inr ?_)
      rw [State.act]
      cases hstatement : state.statement
      all_goals
        rw [hstatement] at h
        rcases bind_eq_error.mp h with h | ⟨next, -, h⟩
        · exact h
        · cases h
    · simp only [hstring, hcomment, Bool.false_eq_true, if_false, if_true] at h
      cases h
      exact .inr (.inl ⟨rfl, rfl⟩)
  · simp only [hstring, if_true] at h
    cases h
    exact .inl ⟨rfl, rfl⟩

/-- A statement that is no node is reported where it starts. -/
theorem nodeOf_eq_error {before trailing : List Char} {statement : Statement}
    (h : nodeOf before statement trailing = .error fault) :
    fault = ⟨.unknownWord, statement.start⟩ ∧
      ¬(statement.keyword.isSome ∨ statement.colon.isSome) := by
  unfold nodeOf at h
  split at h
  · cases h
  · split at h
    · cases h
    · cases h
      simp_all

theorem settle_eq_error (h : state.settle = .error fault) :
    ∃ statement, state.statement = some statement ∧ fault = ⟨.unknownWord, statement.start⟩ ∧
      ¬state.CanSettle := by
  have hcan : ¬state.CanSettle := by
    rw [← exists_settle_iff]
    rintro ⟨next, hnext⟩
    rw [hnext] at h
    cases h
  unfold State.settle at h
  split at h
  · cases h
  · next statement hstatement =>
    rcases bind_eq_error.mp h with h | ⟨node, -, h⟩
    · exact ⟨statement, hstatement, (nodeOf_eq_error h).1, hcan⟩
    · cases h

theorem offset_settle {settled : State} (h : state.settle = .ok settled) :
    settled.offset = state.offset := by
  unfold State.settle at h
  split at h
  · cases h
    rfl
  · obtain ⟨node, -, h⟩ := bind_eq_ok.mp h
    cases h
    rfl

theorem closeBody_eq_error (h : state.closeBody = .error fault) :
    state.outer = [] ∧ fault = ⟨.unexpectedClose, state.offset⟩ := by
  unfold State.closeBody at h
  split at h
  · next houter =>
    cases h
    exact ⟨houter, rfl⟩
  · cases h

/-- Only a mark that ends a statement or a body can be wrong where it stands. -/
theorem act_eq_error (h : state.act token = .error fault) :
    state.IsLevel ∧ (token.kind = .closeCurly ∨
      token.kind = .semicolon ∧ state.statement ≠ none) := by
  unfold State.act at h
  split at h
  · next hnone =>
    refine ⟨by simp [State.IsLevel, hnone], ?_⟩
    unfold State.between at h
    split at h <;> first | cases h | simp_all
  · next statement hstatement =>
    unfold State.inside at h
    split at h
    · cases h
    · next hbrackets =>
      refine ⟨by simp [State.IsLevel, hstatement, hbrackets], ?_⟩
      split at h <;> first | cases h | simp_all

/-! ### What is wrong there -/

/-- **A fault is right about some tokens** if what it is called stands where it is. -/
def IsRight (fault : Fault) (toks : List Token) : Prop :=
  ∃ front rest, toks = front ++ rest ∧ Offends fault.problem.text front rest ∧
    fault.offset = lengthOf front

/-- The statement that has begun cannot end, and starts behind the tokens in front of its run. -/
theorem State.HasRead.settle_eq_error (h : state.HasRead front run)
    (hsettle : state.settle = .error fault) (hrun : IsRun last outer run)
    (htext : ∀ token ∈ run, token.text ≠ []) :
    fault = ⟨.unknownWord, lengthOf front⟩ ∧ run ≠ [] ∧ ¬IsMeaningful outer := by
  obtain ⟨statement, hstatement, rfl, hcan⟩ := Reader.settle_eq_error hsettle
  rw [h.canSettle_iff hrun htext, Classical.not_imp] at hcan
  rw [h.begun hcan.1] at hstatement
  obtain rfl := Option.some.inj hstatement
  rw [start_statementOf]
  exact ⟨rfl, hcan⟩

/-- **Where a token is wrong**: a statement ends that is none, or a body that is not open. -/
theorem State.HasRead.isRight_of_act (h : state.HasRead front run)
    (htext : ∀ token ∈ run, token.text ≠ []) (hact : state.act token = .error fault)
    (behind : List Token) : IsRight fault (front ++ run ++ token :: behind) := by
  obtain ⟨hlevel, hkind⟩ := act_eq_error hact
  obtain ⟨outer, hrun⟩ := exists_isRun_of_level (h.isLevel_iff.mp hlevel)
  rcases hkind with hkind | ⟨hkind, hsome⟩
  · rw [act_closeCurly hkind hlevel] at hact
    rcases bind_eq_error.mp hact with hsettle | ⟨settled, hsettled, hclose⟩
    · -- what stands in front of the brace is no statement
      obtain ⟨rfl, hne, hmeaningless⟩ := h.settle_eq_error hsettle hrun htext
      exact ⟨front, run ++ token :: behind, List.append_assoc ..,
        .unknownWord h.leaves hrun h.starts hne hmeaningless (.inr hkind), rfl⟩
    · -- no body is open, so that all that was read are items of the style sheet.
      have hsettle := exists_settle_iff.mp ⟨settled, hsettled⟩
      have hlast := areItems_last hrun h.starts ((h.canSettle_iff hrun htext).mp hsettle)
      obtain ⟨houter, rfl⟩ := closeBody_eq_error hclose
      have hleaves := h.leaves
      rw [State.braces, ← (settle_spec hsettled).1, houter] at hleaves
      cases hleaves with
      | outermost hwhole =>
        exact ⟨front ++ run, token :: behind, rfl, .unexpectedClose (hwhole.areItems hlast) hkind,
          (offset_settle hsettled).trans h.offset⟩
  · obtain ⟨statement, hstatement⟩ := Option.ne_none_iff_exists'.mp hsome
    rw [act_semicolon hkind hstatement hlevel] at hact
    rcases bind_eq_error.mp hact with hnode | ⟨node, -, hact⟩
    · -- what stands in front of the semicolon is no statement
      obtain ⟨rfl, hmeaningless⟩ := nodeOf_eq_error hnode
      have hne : run ≠ [] := fun hnil => hsome (h.idle hnil)
      rw [h.begun hne] at hstatement
      obtain rfl := Option.some.inj hstatement
      rw [hrun.isMeaningful_iff h.starts htext] at hmeaningless
      rw [start_statementOf]
      exact ⟨front, run ++ token :: behind, List.append_assoc ..,
        .unknownWord h.leaves hrun h.starts hne hmeaningless (.inl hkind), rfl⟩
    · cases hact

/-- **Where the end of the text is wrong**: in a statement that is none, or in a body. -/
theorem State.HasRead.isRight_of_finish (h : state.HasRead front run)
    (htext : ∀ token ∈ run, token.text ≠ []) (hfinish : finish state = .error fault) :
    IsRight fault (front ++ run) := by
  obtain ⟨brackets, hfollows⟩ := h.follows
  obtain ⟨outer, hrun⟩ := exists_isRun_of_advance hfollows
  rcases bind_eq_error.mp hfinish with hsettle | ⟨settled, hsettled, hfinish⟩
  · obtain ⟨rfl, hne, hmeaningless⟩ := h.settle_eq_error hsettle hrun htext
    exact ⟨front, run, rfl, .unknownLast h.leaves hrun h.starts hne hmeaningless, rfl⟩
  · have hsettle := exists_settle_iff.mp ⟨settled, hsettled⟩
    have hlast := areItems_last hrun h.starts ((h.canSettle_iff hrun htext).mp hsettle)
    have hleaves := h.leaves
    rw [State.braces, ← (settle_spec hsettled).1] at hleaves
    cases houter : settled.outer with
    | nil =>
      rw [houter] at hfinish
      cases hfinish
    | cons pair around =>
      rw [houter] at hfinish hleaves
      cases hfinish
      -- The reader names the innermost of the open bodies.
      rw [List.map_cons] at hleaves
      generalize pair.1.offset = place at hleaves ⊢
      cases hleaves with
      | body hbefore hhead hstarts hbrace hwhole =>
        exact ⟨_, _, by simp, .unclosedBlock hbefore hhead hstarts hbrace (hwhole.areItems hlast),
          rfl⟩

/-- **The reader is right about the tokens of a text that it does not read.** -/
theorem isRight_ofTokens (h : ofTokens (tokens cs) = .error fault) : IsRight fault (tokens cs) := by
  have htext {token : Token} (htoken : token ∈ tokens cs) : token.text ≠ [] :=
    (fits_of_mem_tokens cs htoken).ne_nil
  rcases bind_eq_error.mp h with hsteps | ⟨final, hsteps, hfinish⟩
  · obtain ⟨read, token, behind, middle, hsplit, hread, hstep⟩ := exists_of_steps_eq_error hsteps
    have hmem {other : Token} (hother : other ∈ read) : other ∈ tokens cs := by
      rw [hsplit]
      exact List.mem_append_left _ hother
    have htoken : token ∈ tokens cs := by simp [hsplit]
    obtain ⟨front, run, rfl, hhas⟩ := exists_hasRead hread fun other hother => htext (hmem hother)
    rcases step_eq_error hstep with ⟨hstring, rfl⟩ | ⟨hcomment, rfl⟩ | hact
    · exact ⟨_, _, hsplit, offends_unclosedString htoken hstring _ _, hhas.offset⟩
    · exact ⟨_, _, hsplit,
        offends_unclosedComment (fits_of_mem_tokens cs htoken) hcomment _ _, hhas.offset⟩
    · rw [hsplit]
      exact hhas.isRight_of_act (fun other hother => htext (hmem (List.mem_append_right _ hother)))
        hact behind
  · obtain ⟨front, run, hsplit, hhas⟩ := exists_hasRead hsteps fun other => htext
    rw [hsplit]
    refine hhas.isRight_of_finish (fun other hother => htext ?_) hfinish
    rw [hsplit]
    exact List.mem_append_right _ hother

end Reader

/-! ### Errors -/

/-- **An error points at what is wrong**: its message says what stands at its line and column. -/
theorem offends_ofString {text : String} {error : ReadError}
    (h : Sheet.ofString text = .error error) :
    ∃ front rest, tokens text.toList = front ++ rest ∧
      Offends error.problem.text front rest ∧
      error.location.IsBehind (front.flatMap Token.text) := by
  unfold Sheet.ofString at h
  split at h
  · cases h
  · next fault hfault =>
    cases h
    obtain ⟨front, rest, hsplit, hoffends, hoffset⟩ := Reader.isRight_ofTokens hfault
    refine ⟨front, rest, hsplit, hoffends, ?_⟩
    have htake : text.toList.take fault.offset = front.flatMap Token.text := by
      rw [hoffset, ← text_tokens text.toList, hsplit, List.flatMap_append]
      exact List.take_left
    rw [Location.ofOffset, htake]
    exact isBehind_after _

/-- A word that is no declaration, in a rule and behind a character of two units. -/
theorem offends_ofString_word :
    let text := "a \x7b\r\nb:'😀';c \x7d"
    Sheet.ofString text = .error ⟨.unknownWord, ⟨2, 8⟩⟩ ∧
      ∃ front rest, tokens text.toList = front ++ rest ∧ Offends "Unknown word" front rest ∧
        Location.IsBehind ⟨2, 8⟩ (front.flatMap Token.text) := by
  intro text
  have hread : Sheet.ofString text = .error ⟨.unknownWord, ⟨2, 8⟩⟩ := by decide +kernel
  exact ⟨hread, offends_ofString hread⟩

end Restyle.Css
