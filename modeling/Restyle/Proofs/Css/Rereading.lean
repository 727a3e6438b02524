import Restyle.Proofs.Css.Words

/-!
# Reading a legible tree again

The text of a legible tree is written in pieces (`Restyle.Css.IsWritten`): whatever is written
in pieces may follow it, and reading its pieces adds the outline of the tree to a sketch. This
holds node by node, so it is proved along the tree, and the text may be finished in between,
since its pieces are what is left (`Restyle.Css.Spaced.readsAs`).

The last statement of a container may go without its semicolon. So its nodes are written up to
the mark behind them (`Restyle.Css.IsWrittenUpTo`): the brace that closes the body, or nothing
where the style sheet ends.
-/

namespace Restyle.Css

open Reader (Sketch)

/-! ### Texts that are written in pieces -/

/-- **A text is written in pieces** that do something to a sketch, and that are neat where the
texts that they stand for are. -/
def IsWritten (comments : Bool) (tame : Prop) (text : List Char)
    (act : Sketch → Option Sketch) : Prop :=
  ∃ pieces : List Piece, (tame → ∀ p ∈ pieces, p.IsNeat) ∧
    (∀ {cs : List Char} {more : List Piece},
      Spaced cs more → Spaced (text ++ cs) (pieces ++ more)) ∧
    ∀ k : Sketch, k.statement = none → pieces.foldlM (Sketch.step comments) k = act k

/-- More nodes in the open container. -/
def Reader.Sketch.push (nodes : List Node) (k : Sketch) : Sketch :=
  { k with nodes := k.nodes ++ nodes }

/-- Nodes that are added begin no statement. -/
theorem Reader.Sketch.statement_of_push {nodes : List Node} :
    ∀ k k' : Sketch, k.statement = none → some (k.push nodes) = some k' → k'.statement = none := by
  rintro k k' hk ⟨⟩
  exact hk

variable {comments : Bool} {tame tame' : Prop} {text text' : List Char}
  {act act' : Sketch → Option Sketch}

theorem IsWritten.append (h : IsWritten comments tame text act)
    (h' : IsWritten comments tame' text' act')
    (hact : ∀ k k', k.statement = none → act k = some k' → k'.statement = none) :
    IsWritten comments (tame ∧ tame') (text ++ text') fun k => (act k).bind act' := by
  obtain ⟨pieces, hneat, hspaced, hsteps⟩ := h
  obtain ⟨pieces', hneat', hspaced', hsteps'⟩ := h'
  refine ⟨pieces ++ pieces', ?_, fun hcs => ?_, fun k hk => ?_⟩
  · rintro ⟨htame, htame'⟩ p hp
    rcases List.mem_append.mp hp with hp | hp
    · exact hneat htame p hp
    · exact hneat' htame' p hp
  · rw [List.append_assoc, List.append_assoc]
    exact hspaced (hspaced' hcs)
  · rw [List.foldlM_append, hsteps k hk]
    exact Option.bind_congr fun middle hmiddle => hsteps' middle (hact k middle hk hmiddle)

theorem IsWritten.congr (h : IsWritten comments tame text act) (htame : tame' → tame)
    (htext : text' = text) (hact : ∀ k, k.statement = none → act k = act' k) :
    IsWritten comments tame' text' act' := by
  obtain ⟨pieces, hneat, hspaced, hsteps⟩ := h
  subst htext
  exact ⟨pieces, fun h => hneat (htame h), hspaced, fun k hk => (hsteps k hk).trans (hact k hk)⟩

/-! ### Filler -/

/-- The stray semicolons in a text. -/
def strays : List Char → List Piece
  | [] => []
  | c :: cs => if c = ';' then .mark ';' :: strays cs else strays cs

theorem isNeat_of_mem_strays {cs : List Char} {p : Piece} (h : p ∈ strays cs) : p.IsNeat := by
  induction cs with
  | nil => cases h
  | cons c cs ih =>
    rw [strays] at h
    split_ifs at h
    · rcases List.mem_cons.mp h with rfl | h
      · exact trivial
      · exact ih h
    · exact ih h

theorem Spaced.filler {filler cs : List Char} {pieces : List Piece} (hfiller : IsFiller filler)
    (h : Spaced cs pieces) : Spaced (filler ++ cs) (strays filler ++ pieces) := by
  induction filler with
  | nil => exact h
  | cons c filler ih =>
    have hrest := ih fun d hd => hfiller d (List.mem_cons_of_mem _ hd)
    rw [strays]
    split_ifs with hc
    · subst hc
      exact .piece (.mark (.inl rfl)) hrest
    · exact .space ((hfiller c List.mem_cons_self).resolve_right hc) hrest

theorem Reader.Sketch.settle_of_statement {k : Sketch} (h : k.statement = none) :
    k.settle = some k := by
  rw [Sketch.settle, h]

theorem Reader.Sketch.statement_of_settle {k k' : Sketch} (h : k.settle = some k') :
    k'.statement = none := by
  unfold Sketch.settle at h
  split at h
  · next hnone =>
    cases h
    exact hnone
  · obtain ⟨node, -, rfl⟩ := Option.map_eq_some_iff.mp h
    rfl

/-- Stray semicolons do nothing where no statement has begun. -/
theorem steps_strays {k : Sketch} (h : k.statement = none) (cs : List Char) :
    (strays cs).foldlM (Sketch.step comments) k = some k := by
  induction cs with
  | nil => rfl
  | cons c cs ih =>
    rw [strays]
    split_ifs
    · have hstep : Sketch.step comments k (.mark ';') = k.settle := rfl
      rw [List.foldlM_cons, hstep, Sketch.settle_of_statement h]
      exact ih
    · exact ih

/-- And where one has, they finish it as what follows them would. -/
theorem steps_strays_settle (k : Sketch) (cs : List Char) :
    ((strays cs).foldlM (Sketch.step comments) k).bind Sketch.settle = k.settle := by
  induction cs with
  | nil => rfl
  | cons c cs ih =>
    rw [strays]
    split_ifs
    · have hstep : Sketch.step comments k (.mark ';') = k.settle := rfl
      rw [List.foldlM_cons, hstep]
      cases hk : k.settle with
      | none => rfl
      | some k' =>
        have hnone := Sketch.statement_of_settle hk
        rw [Option.bind_eq_bind, Option.bind_some, steps_strays hnone, Option.bind_some,
          Sketch.settle_of_statement hnone]
    · exact ih

theorem isFiller_nil : IsFiller [] := by
  simp [IsFiller]

theorem isWritten_filler {filler : List Char} (h : IsFiller filler) :
    IsWritten comments True filler some :=
  ⟨strays filler, fun _ _ => isNeat_of_mem_strays, Spaced.filler h, fun _ hk => steps_strays hk _⟩

/-! ### Statements and bodies -/

/-- Words in front of white space and a mark. -/
theorem Spaced.words {words blanks cs : List Char} {c : Char} {pieces : List Piece}
    (hblanks : IsGap blanks) (hc : IsMark c)
    (hwords : ∀ e ∈ (blanks ++ [c]).head?, Reader.Readable words e)
    (hprinted : (Reader.statementOf 0 (Reader.spelling words)).IsPrinted)
    (h : Spaced (c :: cs) pieces) :
    Spaced (words ++ (blanks ++ c :: cs)) (.words words :: pieces) := by
  have hspaced : Spaced (blanks ++ c :: cs) pieces := h.gap hblanks
  have hends : Ends (blanks ++ c :: cs) :=
    ⟨blanks, c :: cs, rfl, hblanks, by simpa [StartsMark] using hc⟩
  cases blanks with
  | nil => exact .piece (.words (hwords c rfl) (by simp) hprinted hends) hspaced
  | cons e blanks => exact .piece (.words (hwords e rfl) (by simp) hprinted hends) hspaced

theorem isWritten_comment {text : String} (h : ¬['*', '/'] <:+: text.toList)
    (htame : tame → text = breakMarkerText ∨ ¬markerText <:+: ("/*" ++ text ++ "*/").toList) :
    IsWritten comments tame ("/*" ++ text ++ "*/").toList
      fun k => some (k.push ((Node.comment text {}).outline comments)) := by
  have htext : ("/*" ++ text ++ "*/").toList = (Piece.comment text.toList).text := by
    simp [Piece.text]
  rw [htext] at htame ⊢
  refine ⟨[.comment text.toList], ?_, fun {cs more} hcs => ?_, fun k hk => ?_⟩
  · intro htamed p hp
    rw [List.mem_singleton.mp hp]
    exact (htame htamed).imp_left (congrArg String.toList)
  · exact .piece (.comment h) hcs
  · simp [Sketch.step, hk, Sketch.push]

/-- A statement, up to its semicolon. -/
theorem isWritten_statement {words blanks : List Char} {outlined : Node} (hblanks : IsGap blanks)
    (hwords : ∀ e ∈ (blanks ++ [';']).head?, IsWords words e outlined)
    (hneat : tame → IsNeat words) :
    IsWritten comments tame (words ++ blanks ++ [';']) fun k => some (k.push [outlined]) := by
  obtain ⟨e, he⟩ : ∃ e, (blanks ++ [';']).head? = some e := by cases blanks <;> exact ⟨_, rfl⟩
  refine ⟨[.words words, .mark ';'], ?_, fun {cs more} hcs => ?_, fun k hk => ?_⟩
  · intro htame p hp
    rcases List.mem_cons.mp hp with rfl | hp
    · exact hneat htame
    · rw [List.mem_singleton.mp hp]
      exact trivial
  · have hmark : Spaced (';' :: cs) (.mark ';' :: more) := .piece (.mark (.inl rfl)) hcs
    have htext : words ++ blanks ++ [';'] ++ cs = words ++ (blanks ++ ';' :: cs) := by simp
    rw [htext]
    exact .words hblanks (.inl rfl) (fun d hd => (hwords d hd).readable) (hwords e he).printed hmark
  · simp [Sketch.step, Sketch.settle, hk, (hwords e he).outline, Sketch.push]

/-- A body is opened under a heading. -/
def Reader.Sketch.openUnder (heading : Reader.Heading) (k : Sketch) : Sketch :=
  { nodes := [], outer := (heading, k.nodes) :: k.outer, statement := none }

/-- What a body belongs to, up to its opening brace. -/
theorem isWritten_heading (comments : Bool) {words blanks : List Char} {heading : Reader.Heading}
    (hblanks : IsGap blanks)
    (hwords : ∀ e ∈ (blanks ++ ['\x7b']).head?, Reader.Readable words e)
    (hheading : (Reader.statementOf 0 (Reader.spelling words)).heading = heading)
    (hprinted : (Reader.statementOf 0 (Reader.spelling words)).IsPrinted)
    (hneat : tame → IsNeat words) :
    IsWritten comments tame (words ++ blanks ++ ['\x7b']) fun k => some (k.openUnder heading) := by
  refine ⟨[.words words, .mark '\x7b'], ?_, fun {cs more} hcs => ?_, fun k hk => ?_⟩
  · intro htame p hp
    rcases List.mem_cons.mp hp with rfl | hp
    · exact hneat htame
    · rw [List.mem_singleton.mp hp]
      exact trivial
  · have hmark : Spaced ('\x7b' :: cs) (.mark '\x7b' :: more) :=
      .piece (.mark (.inr (.inl rfl))) hcs
    have htext : words ++ blanks ++ ['\x7b'] ++ cs = words ++ (blanks ++ '\x7b' :: cs) := by simp
    rw [htext]
    exact .words hblanks (.inr (.inl rfl)) hwords hprinted hmark
  · simp [Sketch.step, hk, Sketch.openBody, Sketch.openUnder, hheading]

/-- A body of nothing. -/
theorem isWritten_openCurly {blanks : List Char} (hblanks : IsGap blanks) :
    IsWritten comments tame (blanks ++ ['\x7b']) fun k => some (k.openUnder (.rule "")) := by
  refine ⟨[.mark '\x7b'], ?_, fun {cs more} hcs => ?_, fun k hk => ?_⟩
  · rintro - p hp
    rw [List.mem_singleton.mp hp]
    exact trivial
  · rw [List.append_assoc]
    exact .gap hblanks (.piece (.mark (.inr (.inl rfl))) hcs)
  · simp [Sketch.step, hk, Sketch.openBody, Sketch.openUnder, Reader.Statement.heading]

/-! ### Texts in front of a mark -/

/-- **A text is written in pieces up to a mark**, or up to where all ends: what the pieces leave
begun is finished there. -/
def IsWrittenUpTo (comments : Bool) (tame : Prop) (text : List Char)
    (act : Sketch → Option Sketch) : Prop :=
  ∃ pieces : List Piece, (tame → ∀ p ∈ pieces, p.IsNeat) ∧
    (∀ {cs : List Char} {more : List Piece}, StartsMark cs → Spaced cs more →
      Spaced (text ++ cs) (pieces ++ more)) ∧
    ∀ k : Sketch, k.statement = none →
      (pieces.foldlM (Sketch.step comments) k).bind Sketch.settle = act k

theorem IsWrittenUpTo.congr (h : IsWrittenUpTo comments tame text act) (htame : tame' → tame)
    (htext : text' = text) (hact : ∀ k, k.statement = none → act k = act' k) :
    IsWrittenUpTo comments tame' text' act' := by
  obtain ⟨pieces, hneat, hspaced, hsteps⟩ := h
  subst htext
  exact ⟨pieces, fun h => hneat (htame h), hspaced, fun k hk => (hsteps k hk).trans (hact k hk)⟩

/-- What is written may stand in front. -/
theorem IsWritten.appendUpTo (h : IsWritten comments tame text act)
    (h' : IsWrittenUpTo comments tame' text' act')
    (hact : ∀ k k', k.statement = none → act k = some k' → k'.statement = none) :
    IsWrittenUpTo comments (tame ∧ tame') (text ++ text') fun k => (act k).bind act' := by
  obtain ⟨pieces, hneat, hspaced, hsteps⟩ := h
  obtain ⟨pieces', hneat', hspaced', hsteps'⟩ := h'
  refine ⟨pieces ++ pieces', ?_, fun hmark hcs => ?_, fun k hk => ?_⟩
  · rintro ⟨htame, htame'⟩ p hp
    rcases List.mem_append.mp hp with hp | hp
    · exact hneat htame p hp
    · exact hneat' htame' p hp
  · rw [List.append_assoc, List.append_assoc]
    exact hspaced (hspaced' hmark hcs)
  · rw [List.foldlM_append, hsteps k hk, Option.bind_eq_bind, Option.bind_assoc]
    exact Option.bind_congr fun middle hmiddle => hsteps' middle (hact k middle hk hmiddle)

/-- A brace closes what is written up to it. -/
theorem IsWrittenUpTo.close (h : IsWrittenUpTo comments tame text act) :
    IsWritten comments tame (text ++ ['\x7d']) fun k => (act k).bind Sketch.closeBody := by
  obtain ⟨pieces, hneat, hspaced, hsteps⟩ := h
  refine ⟨pieces ++ [.mark '\x7d'], ?_, fun {cs more} hcs => ?_, fun k hk => ?_⟩
  · intro htame p hp
    rcases List.mem_append.mp hp with hp | hp
    · exact hneat htame p hp
    · rw [List.mem_singleton.mp hp]
      exact trivial
  · have hmark : IsMark '\x7d' := .inr (.inr rfl)
    rw [List.append_assoc, List.append_assoc]
    exact hspaced (by simpa [StartsMark] using hmark) (.piece (.mark hmark) hcs)
  · beta_reduce
    rw [List.foldlM_append, ← hsteps k hk, Option.bind_eq_bind, Option.bind_assoc]
    refine Option.bind_congr fun middle _ => ?_
    simp [Sketch.step]

/-- White space and stray semicolons in front of a mark. -/
theorem isWrittenUpTo_filler {filler : List Char} (hfiller : IsFiller filler) :
    IsWrittenUpTo comments True filler some := by
  refine ⟨strays filler, fun _ _ => isNeat_of_mem_strays, fun _ hcs => .filler hfiller hcs,
    fun k hk => ?_⟩
  rw [steps_strays_settle, Sketch.settle_of_statement hk]

/-- A statement ends where its filler does, or in front of it. -/
theorem Ends.of_filler {filler cs : List Char} (hfiller : IsFiller filler) (hcs : StartsMark cs) :
    Ends (filler ++ cs) := by
  induction filler with
  | nil => exact ⟨[], cs, rfl, by simp [IsGap], hcs⟩
  | cons d filler ih =>
    rcases hfiller d List.mem_cons_self with hd | rfl
    · obtain ⟨blanks, rest, heq, hblanks, hrest⟩ := ih fun e he =>
        hfiller e (List.mem_cons_of_mem _ he)
      exact ⟨d :: blanks, rest, by simpa using heq, by simpa [IsGap, hd] using hblanks, hrest⟩
    · have hmark : IsMark ';' := .inl rfl
      exact ⟨[], _, rfl, by simp [IsGap], by simpa [StartsMark] using hmark⟩

/-- The last statement of a container without its semicolon. -/
theorem isWrittenUpTo_last {words filler : List Char} {outlined : Node} (hfiller : IsFiller filler)
    (hwords : ∀ c, IsMark c → ∀ e ∈ (filler ++ [c]).head?, IsWords words e outlined)
    (hneat : tame → IsNeat words) :
    IsWrittenUpTo comments tame (words ++ filler) fun k => some (k.push [outlined]) := by
  have hnext {cs : List Char} (hcs : StartsMark cs) :
      ∃ d, IsWords words d outlined ∧ ∀ e ∈ (filler ++ cs).head?, e = d := by
    cases hhead : (filler ++ cs).head? with
    | none =>
      obtain ⟨rfl, -⟩ := List.append_eq_nil_iff.mp (List.head?_eq_none_iff.mp hhead)
      exact ⟨';', hwords ';' (.inl rfl) ';' rfl, by simp⟩
    | some d =>
      refine ⟨d, ?_, by simp⟩
      cases filler with
      | nil => exact hwords d (hcs d hhead) d rfl
      | cons e filler => exact hwords ';' (.inl rfl) d (by simpa using hhead)
  have hnothing : StartsMark [] := by simp [StartsMark]
  obtain ⟨e, he, -⟩ := hnext hnothing
  refine ⟨.words words :: strays filler, ?_, fun {cs more} hmark hcs => ?_, fun k hk => ?_⟩
  · intro htame p hp
    rcases List.mem_cons.mp hp with rfl | hp
    · exact hneat htame
    · exact isNeat_of_mem_strays hp
  · obtain ⟨d, hd, hhead⟩ := hnext hmark
    rw [List.append_assoc]
    exact .piece (.words hd.readable hhead hd.printed (.of_filler hfiller hmark))
      (.filler hfiller hcs)
  · have hbegun : Sketch.step comments k (.words words) =
        some { k with statement := some (Reader.statementOf 0 (Reader.spelling words)) } := by
      simp [Sketch.step, hk]
    rw [List.foldlM_cons, hbegun, Option.bind_eq_bind, Option.bind_some]
    -- a stray semicolon finishes the statement as the mark would
    rw [steps_strays_settle]
    simp [Sketch.settle, he.outline, Sketch.push, hk]

/-! ### The slots of a layout -/

theorem IsFillerSlot.isFiller {read : Option String} (h : IsFillerSlot read) {default : String}
    (hdefault : IsGap default.toList) : IsFiller (read.getD default).toList := by
  cases read with
  | none => exact hdefault.isFiller
  | some s => exact h s rfl

theorem IsGapSlot.isGap {read : Option String} (h : IsGapSlot read) {default : String}
    (hdefault : IsGap default.toList) : IsGap (read.getD default).toList := by
  cases read with
  | none => exact hdefault
  | some s => exact h s rfl

theorem toList_indentation (depth : Nat) :
    (indentation depth).toList = List.replicate (2 * depth) ' ' := by
  rw [indentation, String.pushn_eq_repeat_push]
  generalize 2 * depth = n
  induction n with
  | zero => rfl
  | succ n ih => rw [Nat.repeat, String.toList_push, ih, List.replicate_succ']

theorem isGap_indentation (depth : Nat) : IsGap (indentation depth).toList := by
  intro c hc
  rw [toList_indentation] at hc
  obtain rfl := List.eq_of_mem_replicate hc
  decide

theorem isGap_lineFeed_indentation (depth : Nat) : IsGap ("\n" ++ indentation depth).toList := by
  intro c hc
  rw [String.toList_append, List.mem_append] at hc
  rcases hc with hc | hc
  · obtain rfl := List.mem_singleton.mp hc
    decide
  · exact isGap_indentation depth c hc

theorem isGap_defaultBefore (depth index : Nat) : IsGap (defaultBefore depth index).toList := by
  unfold defaultBefore
  split_ifs
  · simp [IsGap]
  · exact isGap_lineFeed_indentation depth

/-! ### Nodes -/

theorem IsAtRuleText.exists_heading {name params : String} {afterName : Option String} {d : Char}
    (h : IsAtRuleText name params afterName d) :
    ∃ afterName', (Reader.statementOf 0
        (Reader.spelling (atRuleText name params afterName))).heading =
          .atRule name afterName' params ∧
      ∀ e, isInert e → (isSpace e → isSpace d) →
        IsWords (atRuleText name params afterName) e (.statement name params {}) := by
  obtain ⟨afterName', hheading⟩ := h.heading
  refine ⟨afterName', hheading, fun e he hspace => ⟨h.readable.giveWay he hspace, ?_, h.printed⟩⟩
  rw [Reader.Statement.outline?, hheading]

theorem isNeat_of_isTameAtRule {name params : String} {afterName : Option String}
    (h : isTameAtRule name params afterName) : IsNeat (atRuleText name params afterName) := by
  rw [isTameAtRule, Bool.and_eq_true] at h
  exact isNeat_iff.mp h.1

/-- The words of an at-rule in front of what its slot holds, and of a mark. -/
theorem IsAtRuleText.words {name params : String} {afterName read : Option String} {d : Char}
    (h : IsAtRuleText name params afterName d) (hfollows : Follows read d)
    (hread : IsFillerSlot read) {default : String} (hdefault : IsGap default.toList) {c : Char}
    (hc : IsMark c) :
    ∀ e ∈ ((read.getD default).toList ++ [c]).head?,
      IsWords (atRuleText name params afterName) e (.statement name params {}) := by
  intro e he
  obtain ⟨d', more, hcons, hinert, hspace⟩ :=
    hfollows.exists_cons hread hdefault hc.isInert hc.not_isSpace []
  rw [hcons] at he
  obtain rfl := Option.some.inj he
  obtain ⟨-, -, hwords⟩ := h.exists_heading
  exact hwords d' hinert hspace

theorem isGap_nil : IsGap "".toList := by
  simp [IsGap]

theorem isGap_space : IsGap " ".toList := by
  intro c hc
  obtain rfl := List.mem_singleton.mp hc
  decide

/-- A body between its heading and its closing brace is a node. -/
theorem IsWritten.body {heading : Reader.Heading} {nodes : List Node}
    (hopen : IsWritten comments tame text fun k => some (k.openUnder heading))
    (hbody : IsWrittenUpTo comments tame' text' fun k => some (k.push (outline comments nodes))) :
    IsWritten comments (tame ∧ tame') (text ++ (text' ++ ['\x7d'])) fun k =>
      some (k.push [heading.outline (outline comments nodes)]) := by
  refine (hopen.append hbody.close ?_).congr id rfl fun k hk => ?_
  · rintro k k' - hk'
    cases hk'
    rfl
  · simp [Sketch.openUnder, Sketch.push, Sketch.closeBody, hk]

theorem IsValueText.giveWay {value : String} {d d' : Char} (h : IsValueText value d)
    (hd' : isInert d') (hspace : isSpace d' → isSpace d) : IsValueText value d' := by
  obtain ⟨htrimmed, hends, toks, htoks, hbalanced⟩ := h
  exact ⟨htrimmed, fun hd => hends (hspace hd), toks,
    htoks.giveWay hd' hspace hends, hbalanced⟩

/-- The words of a declaration in front of what its slot holds, and of a mark. -/
theorem IsPropertyText.exists_words_of_follows {property between value : String}
    {read : Option String} {d : Char} (h : IsPropertyText property between)
    (hvalue : IsValueText value d) (hfollows : Follows read d) (hread : IsFillerSlot read)
    {default : String} (hdefault : IsGap default.toList) :
    ∃ words blanks, (property ++ between ++ value).toList = words ++ blanks ∧ IsGap blanks ∧
      (∀ c, IsMark c → ∀ e ∈ (blanks ++ (read.getD default).toList ++ [c]).head?,
        IsWords words e (.declaration property value {})) ∧
      (isNeat property.toList → isNeat value.toList → isTameColon between.toList →
        IsNeat words) := by
  obtain ⟨words, blanks, htext, hblanks, hwords, hneat⟩ := h.exists_words value
  refine ⟨words, blanks, htext, hblanks, fun c hc => ?_, hneat⟩
  obtain ⟨d', more, hcons, hinert, hspace⟩ :=
    hfollows.exists_cons hread hdefault hc.isInert hc.not_isSpace []
  rw [List.append_assoc, hcons]
  exact hwords (hvalue.giveWay hinert hspace) more

theorem IsWritten.behind {before : Option String} {default : String}
    (h : IsWritten comments tame text act) (hbefore : IsFillerSlot before)
    (hdefault : IsGap default.toList) :
    IsWritten comments tame ((before.getD default).toList ++ text) act := by
  refine ((isWritten_filler (hbefore.isFiller hdefault)).append h ?_).congr
    (fun htame => ⟨trivial, htame⟩) rfl fun k _ => rfl
  rintro k k' hk ⟨⟩
  exact hk

/-- A selector in front of its body. -/
theorem IsSelectorText.opens {selector : String} {d : Char} {between : Option String}
    (h : IsSelectorText selector d) (hfollows : Follows between d) (hbetween : IsGapSlot between) :
    IsWritten comments (isNeat selector.toList)
      (selector.toList ++ (between.getD " ").toList ++ ['\x7b'])
      fun k => some (k.openUnder (.rule selector)) := by
  obtain ⟨htext, -, -⟩ := h.readable.spelled.statementOf_eq 0
  have hheading : (Reader.statementOf 0 (Reader.spelling selector.toList)).heading =
      .rule selector := by
    rw [Reader.Statement.heading, h.heading, htext, h.readable.cuts.text, String.ofList_toList]
  refine isWritten_heading comments (hbetween.isGap isGap_space) ?_ hheading ?_ isNeat_iff.mp
  · intro e he
    obtain ⟨d', more, hcons, hinert, hspace⟩ :=
      hfollows.exists_cons hbetween.isFillerSlot isGap_space (c := '\x7b') rfl (by decide) []
    rw [hcons] at he
    obtain rfl := Option.some.inj he
    exact h.readable.giveWay hinert hspace
  · intro name afterName params hother
    rw [hheading] at hother
    cases hother

/-- The heading of a rule, up to its opening brace, also where it is nothing. -/
theorem isWritten_selector {selector : String} {between : Option String}
    (h : selector ≠ "" → ∃ d, Follows between d ∧ IsSelectorText selector d)
    (hbetween : IsGapSlot between) :
    IsWritten comments (isNeat selector.toList)
      (selector.toList ++ (between.getD " ").toList ++ ['\x7b'])
      fun k => some (k.openUnder (.rule selector)) := by
  by_cases hempty : selector = ""
  · rw [hempty]
    exact isWritten_openCurly (hbetween.isGap isGap_space)
  · obtain ⟨d, hfollows, hselector⟩ := h hempty
    exact hselector.opens hfollows hbetween

/-- A declaration, up to its semicolon. -/
theorem IsPropertyText.isWritten {property between value : String} {after : Option String}
    {d : Char}
    (h : IsPropertyText property between) (hvalue : IsValueText value d)
    (hfollows : Follows after d) (hafter : IsGapSlot after) :
    IsWritten comments (isNeat property.toList ∧ isNeat value.toList ∧ isTameColon between.toList)
      ((property ++ between ++ value).toList ++ (after.getD "").toList ++ [';'])
      fun k => some (k.push [.declaration property value {}]) := by
  obtain ⟨words, blanks, htext, hblanks, hwords, hneat⟩ :=
    h.exists_words_of_follows hvalue hfollows hafter.isFillerSlot isGap_nil
  have hgap := hblanks.append (hafter.isGap isGap_nil)
  refine (isWritten_statement hgap (hwords ';' (.inl rfl)) ?_).congr id ?_ fun k _ => rfl
  · rintro ⟨hproperty, hvalue, hcolon⟩
    exact hneat hproperty hvalue hcolon
  · rw [htext, List.append_assoc words]

theorem IsWrittenUpTo.behind {before : Option String} {default : String}
    (h : IsWrittenUpTo comments tame text act) (hbefore : IsFillerSlot before)
    (hdefault : IsGap default.toList) :
    IsWrittenUpTo comments tame ((before.getD default).toList ++ text) act := by
  refine ((isWritten_filler (hbefore.isFiller hdefault)).appendUpTo h ?_).congr
    (fun htame => ⟨trivial, htame⟩) rfl fun k _ => rfl
  rintro k k' hk ⟨⟩
  exact hk

/-- The last node of a container, without its semicolon. -/
theorem Node.IsLegible.isWrittenUpTo {node : Node} (h : node.IsLegible) {after : Option String}
    {default default' : String} (hlast : node.FitsBefore after) (hafter : IsFillerSlot after)
    (hdefault : IsGap default.toList) (hdefault' : IsGap default'.toList) {depth : Nat}
    (hnode : IsWritten comments node.isTame
      (node.layout.before.getD default ++ node.render depth true).toList
      fun k => some (k.push (node.outline comments))) :
    IsWrittenUpTo comments node.isTame
      ((node.layout.before.getD default ++ node.render depth false).toList ++
        (after.getD default').toList)
      fun k => some (k.push (node.outline comments)) := by
  have hterminated := hnode.appendUpTo (isWrittenUpTo_filler (hafter.isFiller hdefault'))
    Sketch.statement_of_push
  cases node with
  | declaration property value layout =>
    obtain ⟨hbefore, -, hproperty, -⟩ := h
    obtain ⟨d, hfollows, hvalue⟩ := hlast
    obtain ⟨words, blanks, htext, hblanks, hwords, hneat⟩ :=
      hproperty.exists_words_of_follows hvalue hfollows hafter hdefault'
    have hfiller := hblanks.isFiller.append (hafter.isFiller hdefault')
    refine ((isWrittenUpTo_last hfiller hwords ?_).behind hbefore hdefault).congr id ?_
      fun k _ => rfl
    · simp only [Node.isTame, Bool.and_eq_true]
      exact fun htame => hneat htame.1.1 htame.1.2 htame.2
    · rw [← List.append_assoc words, ← htext]
      simp [Node.layout, Node.render]
  | statement name params layout =>
    obtain ⟨hbefore, -⟩ := h
    obtain ⟨d, hfollows, hrule⟩ := hlast
    have hwords (c : Char) (hc : IsMark c) := hrule.words hfollows hafter hdefault' hc
    refine ((isWrittenUpTo_last (hafter.isFiller hdefault') hwords isNeat_of_isTameAtRule).behind
      hbefore hdefault).congr ?_ ?_ fun k _ => rfl
    · simp [Node.isTame]
    · simp [Node.layout, Node.render, atRuleText]
  | _ =>
    -- the others do not end with a semicolon in any case
    exact hterminated.congr (fun htame => ⟨htame, trivial⟩) rfl fun k _ => rfl

mutual

/-- **A legible node is written in pieces**, with its semicolon. -/
theorem Node.isWritten (depth : Nat) {default : String} (hdefault : IsGap default.toList) :
    ∀ {node : Node}, node.IsLegible →
      IsWritten comments node.isTame
        (node.layout.before.getD default ++ node.render depth true).toList
        fun k => some (k.push (node.outline comments))
  | .comment text layout, h => by
    refine ((isWritten_comment h.2 ?_).behind h.1 hdefault).congr id ?_ fun k _ => rfl
    · simp [Node.isTame, Text.contains_eq_false_iff]
    · simp [Node.layout, Node.render]
  | .declaration property value layout, h => by
    obtain ⟨hbefore, hafter, hproperty, d, hfollows, hvalue⟩ := h
    have hwritten : IsWritten comments _ _ _ := hproperty.isWritten hvalue hfollows hafter
    refine (hwritten.behind hbefore hdefault).congr ?_ ?_ fun k _ => rfl
    · simp [Node.isTame, and_assoc]
    · simp [Node.layout, Node.render]
  | .statement name params layout, h => by
    obtain ⟨hbefore, hbetween, -, -, d, hfollows, hrule⟩ := h
    have hwords := hrule.words hfollows hbetween.isFillerSlot isGap_nil (.inl rfl)
    refine ((isWritten_statement (hbetween.isGap isGap_nil) hwords isNeat_of_isTameAtRule).behind
      hbefore hdefault).congr ?_ ?_ fun k _ => rfl
    · simp [Node.isTame]
    · simp [Node.layout, Node.render, atRuleText]
  | .block name params nodes layout, h => by
    obtain ⟨hbefore, hbetween, hafter, ⟨d, hfollows, hrule⟩, hlast, hnodes⟩ := h
    have hwords := hrule.words hfollows hbetween.isFillerSlot isGap_space (.inr (.inl rfl))
    obtain ⟨afterName', hheading, -⟩ := hrule.exists_heading
    have hopen := isWritten_heading comments (hbetween.isGap isGap_space)
      (fun e he => (hwords e he).readable) hheading hrule.printed isNeat_of_isTameAtRule
    -- only a body that was read without the last semicolon is printed without it
    have hbody := isWrittenUpTo_renderNodes (depth + 1) 0 (layout.semicolon.getD true)
      hafter (isGap_lineFeed_indentation depth) hnodes (by cases hs : layout.semicolon <;> simp_all)
    refine ((hopen.body hbody).behind hbefore hdefault).congr ?_ ?_ fun k _ => rfl
    · simp [Node.isTame]
    · simp [Node.layout, Node.render, atRuleText]
  | .rule selector nodes layout, h => by
    obtain ⟨hbefore, hbetween, hafter, hselector, hlast, hnodes⟩ := h
    have hbody := isWrittenUpTo_renderNodes (depth + 1) 0 (layout.semicolon.getD true)
      hafter (isGap_lineFeed_indentation depth) hnodes (by cases hs : layout.semicolon <;> simp_all)
    have hopen : IsWritten comments _ _ _ := isWritten_selector hselector hbetween
    refine ((hopen.body hbody).behind hbefore hdefault).congr ?_ ?_ fun k _ => rfl
    · simp [Node.isTame]
    · simp [Node.layout, Node.render]

/-- **So are the nodes of a container**, up to what closes it. -/
theorem isWrittenUpTo_renderNodes (depth index : Nat) (semicolon : Bool) {after : Option String}
    {default : String} (hafter : IsFillerSlot after) (hdefault : IsGap default.toList) :
    ∀ {nodes : List Node}, AreLegible nodes →
      (semicolon = false → ∀ last ∈ nodes.getLast?, last.FitsBefore after) →
      IsWrittenUpTo comments (areTame nodes)
        ((renderNodes depth index semicolon nodes).toList ++ (after.getD default).toList)
        fun k => some (k.push (outline comments nodes))
  | [], _, _ => by
    refine (isWrittenUpTo_filler (hafter.isFiller hdefault)).congr (fun _ => trivial) ?_
      fun k _ => ?_
    · simp [renderNodes]
    · simp [outline, Sketch.push]
  | node :: rest, h, hlast => by
    by_cases hend : rest = [] ∧ semicolon = false
    · -- the last node goes without its semicolon
      obtain ⟨rfl, rfl⟩ := hend
      have hnode := Node.isWritten depth (isGap_defaultBefore depth index) h.1
      refine (h.1.isWrittenUpTo (hlast rfl node rfl) hafter
        (isGap_defaultBefore depth index) hdefault hnode).congr ?_ ?_ fun k _ => ?_
      · simp [areTame]
      · simp [renderNodes]
      · simp [outline]
    · have hnode := Node.isWritten depth (isGap_defaultBefore depth index) h.1
      have hrest := isWrittenUpTo_renderNodes depth (index + 1) semicolon hafter hdefault h.2 (by
        intro hsemicolon last hmem
        refine hlast hsemicolon last ?_
        rw [List.getLast?_cons, Option.mem_def.mp hmem]
        rfl)
      have hterminated : (!rest.isEmpty || semicolon) = true := by
        cases rest <;> cases semicolon <;> simp_all
      refine (hnode.appendUpTo hrest Sketch.statement_of_push).congr ?_ ?_ fun k _ => ?_
      · simp [areTame]
      · rw [renderNodes, hterminated]
        simp
      · simp [Sketch.push, outline]

end

end Restyle.Css
