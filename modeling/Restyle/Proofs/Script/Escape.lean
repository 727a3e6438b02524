import Restyle.Proofs.Script.Adaptation

/-!
# Literals that are written with escapes

A string literal stands for a text if there are the same quotes around it, no quote of that kind
and no end of a line between them unless it is part of an escape, and what is between them is
decoded to the text (`Restyle.Script.IsStringLiteral`). Such a literal is read as a token for that
text, whatever follows it (`Restyle.Script.IsStringLiteral.scan`).

A text that is written between quotes is decoded to itself, whatever it is
(`Restyle.Script.decode?_encode`). What is missing is an escape for the carriage return: a literal
that was changed stands for its new text exactly if there is no carriage return in it
(`Restyle.Script.adapt_escapes`).
-/

namespace Restyle.Script

open Restyle.Project (Settings)

variable {quote c : Char} {body rest value spelled source : List Char} {literal : Literal}
  {change : String → String}

/-! ### String literals -/

/-- What can stand between two quotes: characters and escapes, on one line. -/
inductive IsStringBody (quote : Char) : List Char → Prop
  | nil : IsStringBody quote []
  | char {c : Char} {rest : List Char} : c ≠ quote → c ≠ '\\' → c ≠ '\n' → c ≠ '\r' →
      IsStringBody quote rest → IsStringBody quote (c :: rest)
  | escape {c : Char} {rest : List Char} : c ≠ '\n' → c ≠ '\r' → IsStringBody quote rest →
      IsStringBody quote ('\\' :: c :: rest)

/-- **A string literal for a text.** -/
def IsStringLiteral (quote : Char) (value spelled : List Char) : Prop :=
  ∃ body, spelled = quote :: (body ++ [quote]) ∧ IsStringBody quote body ∧
    decode? body = some value

/-- The quotes of string literals. -/
def IsQuote (c : Char) : Prop := c = '"' ∨ c = '\''

theorem isStringBody_cons (hc : c ≠ '\\') : IsStringBody quote (c :: rest) ↔
    (c ≠ quote ∧ c ≠ '\n' ∧ c ≠ '\r') ∧ IsStringBody quote rest := by
  constructor
  · rintro (_ | ⟨hquote, -, hfeed, hreturn, hrest⟩ | _)
    · exact ⟨⟨hquote, hfeed, hreturn⟩, hrest⟩
    · exact absurd rfl hc
  · rintro ⟨⟨hquote, hfeed, hreturn⟩, hrest⟩
    exact .char hquote hc hfeed hreturn hrest

theorem isStringBody_escape : IsStringBody quote ('\\' :: c :: rest) ↔
    (c ≠ '\n' ∧ c ≠ '\r') ∧ IsStringBody quote rest := by
  constructor
  · rintro (_ | ⟨-, hslash, -⟩ | ⟨hfeed, hreturn, hrest⟩)
    · exact absurd rfl hslash
    · exact ⟨⟨hfeed, hreturn⟩, hrest⟩
  · rintro ⟨⟨hfeed, hreturn⟩, hrest⟩
    exact .escape hfeed hreturn hrest

/-- What can stand between two quotes ends at the second one. -/
theorem IsStringBody.stringBodyLength? (h : IsStringBody quote body) (hquote : IsQuote quote)
    (rest : List Char) : stringBodyLength? quote 0 (body ++ quote :: rest) = some body.length := by
  have hslash : '\\' ≠ quote := by rcases hquote with rfl | rfl <;> decide
  induction h with
  | nil => simp [Script.stringBodyLength?]
  | char hne hescape hfeed hreturn _ ih =>
    simp [Script.stringBodyLength?, hne, hescape, hfeed, hreturn, ih]
  | escape _ hreturn _ ih =>
    simp [Script.stringBodyLength?, hslash, hreturn.symm, ih, List.isPrefixOf]

/-- **A string literal is read as a token for its text**, whatever follows it. -/
theorem IsStringLiteral.scan (h : IsStringLiteral quote value spelled) (hquote : IsQuote quote)
    (rest : List Char) :
    scan (spelled ++ rest) = (.string (String.ofList value), spelled.length) := by
  obtain ⟨body, rfl, hbody, hvalue⟩ := h
  have hlength := hbody.stringBodyLength? hquote rest
  have htext : quote :: (body ++ [quote]) ++ rest = quote :: (body ++ quote :: rest) := by simp
  have hstart : ¬(isIdentifierStart quote || quote == '\\') := by
    rcases hquote with rfl | rfl <;> decide
  have hdigit : ¬(quote.isDigit || (quote == '.' && (((body ++ quote :: rest).head?.map
      Char.isDigit).getD false))) := by
    rcases hquote with rfl | rfl <;> simp
  rw [htext, Script.scan, if_neg hstart, if_neg hdigit]
  unfold IsQuote at hquote
  simp [hquote, hlength, hvalue]

/-! ### Escapes -/

theorem readEscape?_slash (rest : List Char) : readEscape? ('\\' :: rest) = some (['\\'], 1) := by
  simp [readEscape?, isLineEnd, isOctalDigit]

theorem readEscape?_quote (hquote : IsQuote quote) (rest : List Char) :
    readEscape? (quote :: rest) = some ([quote], 1) := by
  rcases hquote with rfl | rfl <;> simp [readEscape?, isLineEnd, isOctalDigit]

/-- An escape of one character behind the backslash. -/
theorem decodeFrom?_escape {chars : List Char} (h : readEscape? (c :: rest) = some (chars, 1)) :
    decodeFrom? 0 ('\\' :: c :: rest) = (decodeFrom? 0 rest).map (chars ++ ·) := by
  rw [decodeFrom?, if_pos rfl, h]
  rfl

/-- **A text that is written between quotes is decoded to itself.** -/
theorem decode?_encode (hquote : IsQuote quote) (value : List Char) :
    decode? (encode quote value) = some value := by
  unfold decode?
  induction value with
  | nil => rfl
  | cons c value ih =>
    rw [encode]
    split_ifs with hslash hfeed hc
    · rw [decodeFrom?_escape (readEscape?_slash _), ih, hslash]
      rfl
    · rw [decodeFrom?_escape (c := 'n') rfl, ih, hfeed]
      rfl
    · rw [hc, decodeFrom?_escape (readEscape?_quote hquote _), ih]
      rfl
    · rw [decodeFrom?, if_neg hslash, ih]
      rfl

/-- There may be everything in it but a carriage return. -/
theorem isStringBody_encode (hquote : IsQuote quote) (value : List Char) :
    IsStringBody quote (encode quote value) ↔ '\r' ∉ value := by
  induction value with
  | nil => simp [encode, IsStringBody.nil]
  | cons c value ih =>
    rw [encode]
    split_ifs with hslash hfeed hc
    · rw [isStringBody_escape, ih, hslash]
      simp
    · rw [isStringBody_escape, ih, hfeed]
      simp
    · rw [isStringBody_escape, ih, hc]
      rcases hquote with rfl | rfl <;> simp
    · -- A plain character is no quote and no line feed here, but it may be a carriage return.
      rw [isStringBody_cons hslash, ih, List.mem_cons, not_or]
      simp [hc, hfeed, eq_comm]

/-- **A text in quotes is a string literal for itself exactly if it has no carriage return.** -/
theorem isStringLiteral_encode (hquote : IsQuote quote) (value : List Char) :
    IsStringLiteral quote value (quote :: (encode quote value ++ [quote])) ↔ '\r' ∉ value := by
  rw [← isStringBody_encode hquote value]
  constructor
  · rintro ⟨body, hspelled, hbody, -⟩
    obtain rfl : encode quote value = body := by simpa using hspelled
    exact hbody
  · intro hbody
    exact ⟨_, rfl, hbody, decode?_encode hquote value⟩

/-! ### Literals of a source file -/

/-- A literal has quotes of a kind at its ends in the source. -/
def Literal.IsQuoted (quote : Char) (source : List Char) (literal : Literal) : Prop :=
  IsQuote quote ∧ source[literal.start]? = some quote ∧ source[literal.stop - 1]? = some quote

/-- **A literal that changes keeps its quotes** and has the new text between them. -/
theorem Literal.respelled_of_changes (hquoted : literal.IsQuoted quote source)
    (hwithin : literal.IsWithin source) (hraw : ¬literal.isRaw)
    (hchanges : literal.Changes change) :
    literal.respelled change source =
      quote :: (encode quote (Text.trim (change literal.value).toList) ++ [quote]) := by
  obtain ⟨-, hfirst, hlast⟩ := hquoted
  have hne : Text.trim (change literal.value).toList ≠ literal.value.toList := hchanges
  have hbody : literal.changedBody? change source =
      some (encode quote (Text.trim (change literal.value).toList)) := by
    simp [changedBody?, hne, hfirst, bodyOf, hraw, List.head?_drop]
  have hopening := drop_take_singleton hfirst
  have hclosing := drop_take_singleton hlast
  have hstop : literal.stop - 1 + 1 = literal.stop := by
    unfold Literal.IsWithin at hwithin
    omega
  rw [hstop] at hclosing
  rw [respelled, hbody]
  simp only [hopening, hclosing, List.cons_append, List.nil_append]

/-- **What is replaced stays a string literal**: the outcome is the source with other spellings for
the literals that are replaced, each of which has the quotes that it had, and is a string literal
for its adapted text exactly if there is no carriage return in that. -/
theorem adapt_escapes {dialect : Dialect} {scope : Scope} {settings : Settings}
    {palette : Option Class.Palette} {text : String} {program : List Node}
    (hprogram : program? dialect text.toList = some program)
    (happart : AreApart (scope.replaced settings palette program) text.toList)
    (hquoted : ∀ literal ∈ scope.replaced settings palette program,
      ∃ quote, literal.IsQuoted quote text.toList) :
    ∃ (out : String) (written : Literal → List Char),
      adapt dialect scope settings palette text = .ok out ∧
      out.toList = respell written text.toList 0 (scope.replaced settings palette program) ∧
      ∀ literal ∈ scope.replaced settings palette program, ¬literal.isRaw →
        ∃ quote, literal.IsQuoted quote text.toList ∧
          (IsStringLiteral quote (Text.trim (Class.adapt settings palette literal.value).toList)
              (written literal) ↔
            '\r' ∉ Text.trim (Class.adapt settings palette literal.value).toList) := by
  unfold adapt
  unfold Scope.replaced at happart hquoted ⊢
  split_ifs at happart hquoted ⊢
  · have hordered := happart.pairwise_of_sorted ((pairwise_start_mergeSort _).filter _)
    refine ⟨String.ofList (changeLiterals (Class.adapt settings palette)
      (scope.literals program) text.toList),
      (·.respelled (Class.adapt settings palette) text.toList), ?_, ?_, ?_⟩
    · rw [hprogram]
    · rw [String.toList_ofList, ← changeLiterals_filter,
        changeLiterals_eq_respell hordered happart.within]
    · intro literal hmem hraw
      obtain ⟨quote, hquotes⟩ := hquoted literal hmem
      have hchanges : literal.Changes (Class.adapt settings palette) :=
        of_decide_eq_true (List.mem_filter.mp hmem).2
      refine ⟨quote, hquotes, ?_⟩
      dsimp only
      rw [Literal.respelled_of_changes hquotes (happart.within literal hmem) hraw hchanges]
      exact isStringLiteral_encode hquotes.1 _
  · -- nothing is adapted, so that nothing is replaced
    exact ⟨text, (·.spelling text.toList), rfl, rfl, nofun⟩

theorem adapt_escapes_lineFeed :
    let text := "export \x7b'a'\x7d from 'b'; f(' it\\'s\\nso \\\\');"
    let literal : Literal := ⟨25, 40, " it's\nso \\", false⟩
    ∃ (out : String) (written : Literal → List Char),
      adapt (.ofPath "a.ts") .everywhere { rtl := true } none text = .ok out ∧
      out.toList = respell written text.toList 0 [literal] ∧
      IsStringLiteral '\'' "it's\nso \\".toList (written literal) := by
  intro text literal
  have hread : (program? (.ofPath "a.ts") text.toList).map (literalsOfAll true) =
      some [⟨8, 11, "a", false⟩, ⟨8, 11, "a", false⟩, ⟨18, 21, "b", false⟩, literal] := by
    decide +kernel
  obtain ⟨program, hprogram, hcollected⟩ := Option.map_eq_some_iff.mp hread
  have hliterals := @Scope.literals_eq .everywhere _ _ hcollected (by decide)
  have hreplaced : Scope.everywhere.replaced { rtl := true } none program = [literal] := by
    rw [Scope.replaced, hliterals]
    decide +kernel
  have hquoted : literal.IsQuoted '\'' text.toList := ⟨.inr rfl, by decide, by decide⟩
  have happart : AreApart [literal] text.toList := by
    refine ⟨by decide, ?_, by decide⟩
    unfold Literal.IsWithin
    decide
  have hvalue : Text.trim (Class.adapt { rtl := true } none literal.value).toList =
      "it's\nso \\".toList := by
    decide +kernel
  obtain ⟨out, written, hout, hrespell, hall⟩ :=
    @adapt_escapes _ _ { rtl := true } none _ _ hprogram (by rw [hreplaced]; exact happart)
      (by rw [hreplaced]; exact fun _ hmem => ⟨_, List.mem_singleton.mp hmem ▸ hquoted⟩)
  rw [hreplaced] at hrespell hall
  obtain ⟨quote, ⟨-, hopening, -⟩, hiff⟩ := hall literal List.mem_cons_self (by decide)
  obtain rfl : '\'' = quote := Option.some.inj (hquoted.2.1.symm.trans hopening)
  rw [hvalue] at hiff
  exact ⟨out, written, hout, hrespell, hiff.mpr (by decide)⟩

/-- **Not everything that is replaced stays a string literal**: one with a carriage return does
not. -/
theorem not_forall_adapt_escapes :
    ¬∀ (dialect : Dialect) (scope : Scope) (settings : Settings) (palette : Option Class.Palette)
      (text : String) (program : List Node), program? dialect text.toList = some program →
      AreApart (scope.replaced settings palette program) text.toList →
      (∀ literal ∈ scope.replaced settings palette program,
        ∃ quote, literal.IsQuoted quote text.toList) →
      ∃ (out : String) (written : Literal → List Char),
        adapt dialect scope settings palette text = .ok out ∧
        out.toList = respell written text.toList 0 (scope.replaced settings palette program) ∧
        ∀ literal ∈ scope.replaced settings palette program, ¬literal.isRaw →
          ∃ quote, literal.IsQuoted quote text.toList ∧
            IsStringLiteral quote
              (Text.trim (Class.adapt settings palette literal.value).toList) (written literal) := by
  intro h
  let text := "const a = \" a\\rb\";"
  let literal : Literal := ⟨10, 17, " a\rb", false⟩
  have hread : (program? (.ofPath "a.ts") text.toList).map (literalsOfAll true) =
      some [literal] := by
    decide +kernel
  obtain ⟨program, hprogram, hcollected⟩ := Option.map_eq_some_iff.mp hread
  have hliterals := @Scope.literals_eq .everywhere _ _ hcollected (by decide)
  have hreplaced : Scope.everywhere.replaced { rtl := true } none program = [literal] := by
    rw [Scope.replaced, hliterals]
    decide +kernel
  have hquoted : literal.IsQuoted '"' text.toList := ⟨.inl rfl, by decide, by decide⟩
  have happart : AreApart [literal] text.toList := by
    refine ⟨by decide, ?_, by decide⟩
    unfold Literal.IsWithin
    decide
  obtain ⟨out, written, hout, hrespell, hall⟩ :=
    h (.ofPath "a.ts") .everywhere { rtl := true } none text program hprogram
      (by rw [hreplaced]; exact happart)
      (by rw [hreplaced]; exact fun _ hmem => ⟨_, List.mem_singleton.mp hmem ▸ hquoted⟩)
  rw [hreplaced] at hrespell hall
  obtain ⟨quote, ⟨-, hopening, -⟩, body, hspelled, hbody, -⟩ :=
    hall literal List.mem_cons_self (by decide)
  obtain rfl : '"' = quote := Option.some.inj (hquoted.2.1.symm.trans hopening)
  have hchanged : adapt (.ofPath "a.ts") .everywhere { rtl := true } none text =
      .ok "const a = \"a\rb\";" := by
    decide +kernel
  obtain rfl := Except.ok.inj (hchanged.symm.trans hout)
  have hcut : "const a = \"".toList ++ ("a\rb".toList ++ "\";".toList) =
      "const a = \"".toList ++ (body ++ "\";".toList) := by
    simpa [respell, hspelled, text, literal] using hrespell
  have hraw : "a\rb".toList = body :=
    List.append_cancel_right (List.append_cancel_left hcut)
  rw [← hraw] at hbody
  simp [isStringBody_cons] at hbody

end Restyle.Script
