import Restyle.Proofs.Css.Acceptance

/-!
# Strings and comments that are closed

Of the texts that are sequences of items, the reader accepts those whose strings and comments
are closed – as far as it can tell. It looks at the first and the last character of a token
only, and so takes a string for closed that the end of the text cuts off right behind an
escaped quote (`Restyle.Css.Token.EndsEscaped`).

That is the one difference. A token the reader takes for closed either is
(`Restyle.Css.Token.Closes`) or is such a string (`Restyle.Css.Token.isClosed_iff`), and such a
string is the last token of its text (`Restyle.Css.getLast?_of_endsEscaped`). So
`Restyle.Css.exists_ofString_iff` says exactly which texts are read, and
`Restyle.Css.not_forall_exists_ofString_iff_isStyleSheet` that these are more than the style
sheets.
-/

namespace Restyle.Css

variable {quote : Char} {token : Token} {cs : List Char}

/-! ### The quote at the end -/

/-- Whether a text, behind an opening quote, is a string up to its closing one. A backslash
takes the character behind it into the string. -/
def closesString (quote : Char) : List Char → Bool
  | [] => false
  | '\\' :: _ :: rest => closesString quote rest
  | c :: rest => if c = quote then rest.isEmpty else closesString quote rest

theorem closesString_cons {c : Char} (h : c ≠ '\\') :
    closesString quote (c :: cs) = if c = quote then cs.isEmpty else closesString quote cs := by
  rw [closesString.eq_3]
  rintro d rest rfl
  exact absurd rfl h

/-- **A string or comment with its closing mark.** A string that a line end breaks off has
none. -/
def Token.Closes (token : Token) : Prop :=
  match token.kind with
  | .string => ∃ quote rest, token.text = quote :: rest ∧ closesString quote rest
  | .brokenString => False
  | .comment => ∃ inside, token.text = '/' :: '*' :: (inside ++ ['*', '/'])
  | _ => True

/-- **A string that ends with its own quote, escaped.** -/
def Token.EndsEscaped (token : Token) : Prop :=
  token.kind = .string ∧ ∃ quote rest, token.text = quote :: rest ∧
    rest.getLast? = some quote ∧ closesString quote rest = false

theorem getLast?_of_closesString (h : closesString quote cs) : cs.getLast? = some quote := by
  revert h
  fun_induction closesString quote cs with
  | case1 => simp
  | case2 c rest ih =>
    intro h
    rw [List.getLast?_cons, List.getLast?_cons, ih h]
    rfl
  | case3 rest =>
    intro h
    rw [List.isEmpty_iff.mp h]
    rfl
  | case4 c rest _ _ ih =>
    intro h
    rw [List.getLast?_cons, ih h]
    rfl

/-- What the reader looks at in a string. -/
theorem isClosed_string_iff {c : Char} :
    Token.IsClosed ⟨.string, c :: cs⟩ ↔ cs.getLast? = some c := by
  show (((c :: cs).length < 2 || (c :: cs).head? != (c :: cs).getLast?) = false ∧ false = false) ↔ _
  rcases List.eq_nil_or_concat' cs with rfl | ⟨front, d, rfl⟩
  · simp
  · have hlong : ¬(c :: (front ++ [d])).length < 2 := by simp
    rw [decide_eq_false hlong, Bool.false_or, bne_eq_false_iff_eq, List.head?_cons,
      List.getLast?_concat, ← List.cons_append, List.getLast?_concat, and_iff_left rfl, eq_comm]

/-- And in a comment. -/
theorem isClosed_comment_iff : Token.IsClosed ⟨.comment, '/' :: '*' :: cs⟩ ↔
    ∃ inside, cs = inside ++ ['*', '/'] := by
  show (false = false ∧ (decide (('/' :: '*' :: cs).length < 4) ||
    !(List.isPrefixOf ['/', '*'] ('/' :: '*' :: cs).reverse)) = false) ↔ _
  simp only [true_and, Bool.or_eq_false_iff, decide_eq_false_iff_not, Bool.not_eq_false',
    List.isPrefixOf_iff_prefix, List.length_cons]
  constructor
  · rintro ⟨hlength, hprefix⟩
    have hsuffix : ['*', '/'] <:+ ['/', '*'] ++ cs := List.reverse_prefix.mp hprefix
    obtain ⟨inside, rfl⟩ := List.suffix_of_suffix_length_le hsuffix (List.suffix_append _ _)
      (by simpa using hlength)
    exact ⟨inside, rfl⟩
  · rintro ⟨inside, rfl⟩
    simp

/-- **What the reader takes for closed** is, or is a string that ends with its quote
escaped. -/
theorem Token.isClosed_iff (h : token.Fits) :
    token.IsClosed ↔ token.Closes ∨ token.EndsEscaped := by
  obtain ⟨kind, text⟩ := token
  cases kind with
  | string =>
    obtain ⟨quote, rest, rfl⟩ := List.exists_cons_of_ne_nil h.ne_nil
    rw [isClosed_string_iff]
    cases hcloses : closesString quote rest with
    | true => simp [Closes, hcloses, getLast?_of_closesString hcloses]
    | false => simp [Closes, EndsEscaped, hcloses]
  | comment =>
    obtain ⟨rest, rfl⟩ := h
    rw [isClosed_comment_iff]
    simp [Closes, EndsEscaped]
  | brokenString => simp [IsClosed, isUnclosedString, Closes, EndsEscaped]
  | _ => simp [IsClosed, isUnclosedString, isUnclosedComment, Closes]

/-! ### The end of the text -/

theorem isSpace_of_isNewline {c : Char} (h : isNewline c) : isSpace c := by
  simp only [isNewline, Bool.or_eq_true, beq_iff_eq] at h
  rcases h with (rfl | rfl) | rfl <;> rfl

/-- The white space that ends an escape. -/
theorem isSpace_of_mem_take_newlineLength {c : Char} (h : c ∈ cs.take (newlineLength cs)) :
    isSpace c := by
  fun_cases newlineLength cs with
  | case1 rest =>
    obtain rfl | rfl : c = '\r' ∨ c = '\n' := by simpa [newlineLength] using h
    · rfl
    · rfl
  | case2 d rest hpair hnewline =>
    rw [newlineLength.eq_2 _ _ hpair, if_pos hnewline] at h
    obtain rfl : c = d := by simpa using h
    exact isSpace_of_isNewline hnewline
  | case3 d rest hpair hnewline =>
    rw [newlineLength.eq_2 _ _ hpair, if_neg hnewline] at h
    simp at h
  | case4 => simp at h

theorem isSpace_of_mem_take_escapeEndLength {c : Char} (h : c ∈ cs.take (escapeEndLength cs)) :
    isSpace c := by
  cases cs with
  | nil => simp at h
  | cons d cs =>
    rw [escapeEndLength] at h
    split_ifs at h with hblank
    · obtain rfl : c = d := by simpa using h
      rcases hblank with rfl | rfl <;> rfl
    · exact isSpace_of_mem_take_newlineLength h

/-- Behind its first character, an escape has digits and white space only. -/
theorem plain_of_mem_tail_escape {c : Char} (h : c ∈ (cs.take (stringEscapeLength cs)).tail) :
    isHexDigit c ∨ isSpace c := by
  rw [stringEscapeLength] at h
  split_ifs at h with hnewline
  · rw [escapeLength] at h
    split_ifs at h with hdigits
    · have hsingle : ((cs.take (min cs.length 1)).tail).length = 0 := by
        simp only [List.length_tail, List.length_take]
        omega
      rw [List.length_eq_zero_iff.mp hsingle] at h
      simp at h
    · rw [List.take_add] at h
      rcases List.mem_append.mp (List.mem_of_mem_tail h) with h | h
      · have hprefix : (cs.take 6).takeWhile isHexDigit <+: cs :=
          (List.takeWhile_prefix _).trans (List.take_prefix 6 cs)
        rw [← List.prefix_iff_eq_take.mp hprefix] at h
        exact .inl (List.mem_takeWhile_imp h)
      · exact .inr (isSpace_of_mem_take_escapeEndLength h)
  · exact .inr (isSpace_of_mem_take_newlineLength (List.mem_of_mem_tail h))

theorem stringEscapeLength_cons_ne_zero (c : Char) (cs : List Char) :
    stringEscapeLength (c :: cs) ≠ 0 := by
  rw [stringEscapeLength]
  split_ifs with hnewline
  · rw [escapeLength]
    split_ifs <;> simp_all
  · exact hnewline

/-- Neither ends a string, nor begins an escape. -/
theorem ne_of_plain (hquote : quote = '"' ∨ quote = '\'') {c : Char}
    (h : isHexDigit c ∨ isSpace c) : c ≠ quote ∧ c ≠ '\\' := by
  constructor
  · rintro rfl
    rcases hquote with rfl | rfl <;> exact absurd h (by decide)
  · rintro rfl
    exact absurd h (by decide)

/-- A string is closed where its scan ends, or that is the end of the text. -/
theorem closesString_take_or (hquote : quote = '"' ∨ quote = '\'') (skip : Nat)
    (hskip : ∀ c ∈ cs.take skip, isHexDigit c ∨ isSpace c)
    (hkind : (stringLength quote skip cs).1 = .string) :
    closesString quote (cs.take (stringLength quote skip cs).2) ∨
      cs.length ≤ (stringLength quote skip cs).2 := by
  induction hlength : cs.length using Nat.strong_induction_on generalizing skip cs with
  | _ n ih =>
    subst hlength
    cases cs with
    | nil => exact .inr (Nat.zero_le _)
    | cons c cs =>
      cases skip with
      | succ skip =>
        rw [stringLength_succ] at hkind ⊢
        rw [List.take_succ_cons, List.forall_mem_cons] at hskip
        obtain ⟨hne, hescape⟩ := ne_of_plain hquote hskip.1
        rw [List.take_succ_cons, closesString_cons hescape, if_neg hne]
        simpa using ih cs.length (by simp) skip hskip.2 hkind rfl
      | zero =>
        rw [stringLength_zero] at hkind ⊢
        split_ifs at hkind ⊢ with hc hbreak hescape
        · subst hc
          left
          rcases hquote with rfl | rfl <;> rfl
        · -- the character behind a backslash is any one; only those behind it are plain
          subst hescape
          cases cs with
          | nil => exact .inr (by simp)
          | cons d cs =>
            have htail {c : Char} (h : c ∈ ((d :: cs).take (stringEscapeLength (d :: cs))).tail) :
                isHexDigit c ∨ isSpace c := plain_of_mem_tail_escape h
            cases hlength : stringEscapeLength (d :: cs) with
            | zero => exact absurd hlength (stringEscapeLength_cons_ne_zero d cs)
            | succ skip =>
              rw [hlength, List.take_succ_cons, List.tail_cons] at htail
              rw [hlength, stringLength_succ] at hkind
              rw [stringLength_succ, List.take_succ_cons, List.take_succ_cons, closesString.eq_2]
              simpa using ih cs.length (by simp only [List.length_cons]; omega) skip
                (fun c hc => htail hc) hkind rfl
        · rw [List.take_succ_cons, closesString_cons hescape, if_neg hc]
          simpa using ih cs.length (by simp) 0 (by simp) hkind rfl

/-- The kinds of strings, whole or broken off. -/
def isQuoted : Kind → Bool
  | .string | .brokenString => true
  | _ => false

theorem not_isQuoted_of_markKind? {c : Char} {kind : Kind} (h : markKind? c = some kind) :
    ¬isQuoted kind := by
  unfold markKind? at h
  split_ifs at h <;> cases h <;> simp [isQuoted]

theorem not_isQuoted_namedLength (cs : List Char) : ¬isQuoted (namedLength cs).1 := by
  have hkind := namedLength_kind cs
  simp only [List.mem_cons, List.not_mem_nil, or_false] at hkind
  rcases hkind with hkind | hkind | hkind | hkind <;> simp [hkind, isQuoted]

theorem not_isQuoted_numericLength (cs : List Char) : ¬isQuoted (numericLength cs).1 := by
  have hkind := numericLength_kind cs
  simp only [List.mem_cons, List.not_mem_nil, or_false] at hkind
  rcases hkind with hkind | hkind | hkind <;> simp [hkind, isQuoted]

theorem not_isQuoted_signedLength (c : Char) (cs : List Char) :
    ¬isQuoted (signedLength c cs).1 := by
  rw [signedLength]
  split_ifs
  · exact not_isQuoted_numericLength cs
  · simp [isQuoted]
  · exact not_isQuoted_namedLength (c :: cs)
  · simp [isQuoted]
  · simp [isQuoted]

/-- **Only behind a quote does a scan find a string.** -/
theorem scan_of_isQuoted {c : Char} (h : isQuoted (scan c cs).1) :
    (c = '"' ∨ c = '\'') ∧ scan c cs = stringLength c 0 cs := by
  revert h
  fun_cases scan c cs with
  | case2 _ hquote => exact fun _ => ⟨hquote, rfl⟩
  | case3 _ _ kind hkind => exact fun h => absurd h (not_isQuoted_of_markKind? hkind)
  | case6 => exact fun h => absurd h (not_isQuoted_signedLength c cs)
  | case7 => exact fun h => absurd h (not_isQuoted_numericLength (c :: cs))
  | case9 =>
    rw [slashLength.eq_def]
    split <;> exact fun h => absurd h (by simp [isQuoted])
  | case12 => exact fun h => absurd h (not_isQuoted_namedLength (c :: cs))
  | _ => exact fun h => absurd h (by simp [isQuoted])

/-- **A string starts with a quote.** -/
theorem exists_quote (htoken : token ∈ tokens cs) (h : isQuoted token.kind) :
    ∃ quote inside, token.text = quote :: inside ∧ (quote = '"' ∨ quote = '\'') := by
  induction cs using tokens.induct with
  | case1 => simp [tokens] at htoken
  | case2 c rest kind n hscan ih =>
    rw [tokens_cons, hscan] at htoken
    rcases List.mem_cons.mp htoken with rfl | hmem
    · exact ⟨c, rest.take n, rfl, (scan_of_isQuoted (by rw [hscan]; exact h)).1⟩
    · exact ih hmem

/-- **A string that ends with its quote escaped is cut off by the end of the text.** -/
theorem getLast?_of_endsEscaped (htoken : token ∈ tokens cs) (h : token.EndsEscaped) :
    (tokens cs).getLast? = some token := by
  induction cs using tokens.induct with
  | case1 => simp [tokens] at htoken
  | case2 c rest kind n hscan ih =>
    rw [tokens_cons, hscan] at htoken ⊢
    rcases List.mem_cons.mp htoken with rfl | hmem
    · obtain ⟨hstring, quote, inside, htext, -, hopen⟩ := h
      obtain ⟨rfl, rfl⟩ := List.cons.inj htext
      have hkind : (scan c rest).1 = .string := by rw [hscan]; exact hstring
      obtain ⟨hquote, hlength⟩ := scan_of_isQuoted (by rw [hkind]; rfl)
      rw [hlength] at hkind hscan
      have hends := closesString_take_or hquote 0 (by simp) hkind
      rw [hscan, hopen] at hends
      have hrest : rest.drop n = [] := List.drop_eq_nil_iff.mpr (by simpa using hends)
      rw [hrest, tokens]
      rfl
    · rw [List.getLast?_cons, ih hmem]
      rfl

/-! ### What is read -/

/-- **The texts that are read** are sequences of items whose strings and comments are closed,
except that the last token may be a string that ends with its quote escaped. -/
theorem exists_ofString_iff (text : String) :
    (∃ sheet, Sheet.ofString text = .ok sheet) ↔ AreItems true (tokens text.toList) ∧
      ∀ token ∈ tokens text.toList, token.Closes ∨
        token.EndsEscaped ∧ (tokens text.toList).getLast? = some token := by
  have hfits {token : Token} (h : token ∈ tokens text.toList) := fits_of_mem_tokens text.toList h
  have hread : (∃ sheet, Sheet.ofString text = .ok sheet) ↔
      ∃ sheet, Reader.ofTokens (tokens text.toList) = .ok sheet := by
    rw [Sheet.ofString]
    cases Reader.ofTokens (tokens text.toList) <;> simp
  rw [hread, Reader.exists_ofTokens_iff fun token h => (hfits h).ne_nil]
  refine and_congr_right fun _ => forall₂_congr fun token h => ?_
  rw [Token.isClosed_iff (hfits h)]
  exact or_congr_right ⟨fun hends => ⟨hends, getLast?_of_endsEscaped h hends⟩, And.left⟩

/-- **A style sheet**: items, with all strings and comments closed. -/
structure IsStyleSheet (toks : List Token) : Prop where
  items : AreItems true toks
  closes : ∀ token ∈ toks, token.Closes

/-- **Not only style sheets are read**: in `a:"x\"` the second quote is part of the string,
which therefore is never closed, and it is taken for the closing one. -/
theorem not_forall_exists_ofString_iff_isStyleSheet :
    ¬∀ text, (∃ sheet, Sheet.ofString text = .ok sheet) ↔ IsStyleSheet (tokens text.toList) := by
  intro h
  have hread : Sheet.ofString "a:\"x\\\"" = .ok ⟨[.declaration "a" "\"x\\\""
      { before := some "", between := some ":", after := some "" }], "", false⟩ := by
    decide +kernel
  have htokens : tokens "a:\"x\\\"".toList =
      [⟨.name, ['a']⟩, ⟨.colon, [':']⟩, ⟨.string, ['"', 'x', '\\', '"']⟩] := by
    decide +kernel
  obtain ⟨-, hcloses⟩ := (h "a:\"x\\\"").mp ⟨_, hread⟩
  rw [htokens] at hcloses
  obtain ⟨quote, rest, htext, hstring⟩ := hcloses ⟨.string, ['"', 'x', '\\', '"']⟩ (by simp)
  obtain ⟨rfl, rfl⟩ := List.cons.inj htext
  exact absurd hstring (by decide)

end Restyle.Css
