import Mathlib.Data.List.TakeWhile
import Mathlib.Tactic.SplitIfs
import Restyle.Css.Token

/-!
# What the text of a token shows

The reader of a style sheet looks at the kinds of tokens only; that their texts go with
their kinds is the tokenizer's affair. `Restyle.Css.Token.Fits` says what is known of the
text of a token by its kind – a colon is a colon, an at-keyword starts with `@`, white space
is white space – and `Restyle.Css.fits_of_mem_tokens` that all tokens of a text are so.
-/

namespace Restyle.Css

/-! ### Kinds -/

/-- What the text of a token looks like, by its kind. -/
def Token.Fits (token : Token) : Prop :=
  match token.kind with
  | .space => token.text ≠ [] ∧ ∀ c ∈ token.text, isSpace c
  | .comment => ∃ rest, token.text = '/' :: '*' :: rest
  | .semicolon => token.text = [';']
  | .colon => token.text = [':']
  | .openCurly => token.text = ['\x7b']
  | .closeCurly => token.text = ['\x7d']
  | .atKeyword => ∃ rest, token.text = '@' :: rest
  | _ => token.text ≠ []

/-- There is something of every token. -/
theorem Token.Fits.ne_nil {token : Token} (h : token.Fits) : token.text ≠ [] := by
  unfold Token.Fits at h
  split at h
  · exact h.1
  · obtain ⟨rest, hrest⟩ := h
    simp [hrest]
  · simp [h]
  · simp [h]
  · simp [h]
  · simp [h]
  · obtain ⟨rest, hrest⟩ := h
    simp [hrest]
  · exact h

/-- A scan behind a quote finds a string, closed or broken. -/
theorem stringLength_kind (quote : Char) (skip : Nat) (cs : List Char) :
    (stringLength quote skip cs).1 ∈ [Kind.string, .brokenString] := by
  fun_induction stringLength quote skip cs <;> simp_all

/-- An address is whole or broken. -/
theorem addressLength_kind (skip : Nat) (cs : List Char) :
    (addressLength skip cs).1 ∈ [Kind.address, .brokenAddress] := by
  fun_induction addressLength skip cs <;> simp_all

/-- What follows `url(` is an address, or the arguments of a function. -/
theorem urlLength_kind (cs : List Char) :
    (urlLength cs).1 ∈ [Kind.function, .address, .brokenAddress] := by
  have h := addressLength_kind 0 (cs.dropWhile isSpace)
  fun_cases urlLength cs <;> simp_all

/-- A name is a name, a function or an address. -/
theorem namedLength_kind (cs : List Char) :
    (namedLength cs).1 ∈ [Kind.name, .function, .address, .brokenAddress] := by
  fun_cases namedLength cs with
  | case1 n rest hrest hurl kind more h =>
    have hkind := urlLength_kind rest
    simp_all
  | case2 => simp
  | case3 => simp

/-- A number has a unit, a percent sign or neither. -/
theorem numericLength_kind (cs : List Char) :
    (numericLength cs).1 ∈ [Kind.number, .percentage, .dimension] := by
  fun_cases numericLength cs <;> simp

/-- A single mark is what its kind says. -/
theorem fits_of_markKind? {c : Char} {kind : Kind} (h : markKind? c = some kind) :
    Token.Fits ⟨kind, [c]⟩ := by
  unfold markKind? at h
  split_ifs at h with h1 h2 h3 h4 h5 h6 h7 h8 h9 <;> cases h <;> simp_all [Token.Fits]

/-! ### Tokens -/

/-- Whether a kind shows nothing of a text but that there is one. -/
def Kind.isPlain : Kind → Bool
  | .space | .comment | .semicolon | .colon | .openCurly | .closeCurly | .atKeyword => false
  | _ => true

theorem fits_of_isPlain {kind : Kind} (h : kind.isPlain) (c : Char) (cs : List Char) :
    Token.Fits ⟨kind, c :: cs⟩ := by
  cases kind <;> simp_all [Kind.isPlain, Token.Fits]

/-- All kinds of names are plain. -/
theorem isPlain_namedLength (cs : List Char) : (namedLength cs).1.isPlain := by
  have h := namedLength_kind cs
  simp only [List.mem_cons, List.not_mem_nil, or_false] at h
  rcases h with h | h | h | h <;> rw [h] <;> rfl

/-- All kinds of numbers are plain. -/
theorem isPlain_numericLength (cs : List Char) : (numericLength cs).1.isPlain := by
  have h := numericLength_kind cs
  simp only [List.mem_cons, List.not_mem_nil, or_false] at h
  rcases h with h | h | h <;> rw [h] <;> rfl

/-- So are all kinds of what starts with a sign. -/
theorem isPlain_signedLength (c : Char) (rest : List Char) : (signedLength c rest).1.isPlain := by
  unfold signedLength
  split_ifs
  · exact isPlain_numericLength rest
  · rfl
  · exact isPlain_namedLength (c :: rest)
  · rfl
  · rfl

/-- A scan gives a token whose text goes with its kind. -/
theorem fits_scan (c : Char) (rest : List Char) :
    Token.Fits ⟨(scan c rest).1, c :: rest.take (scan c rest).2⟩ := by
  fun_cases scan c rest with
  | case1 hspace =>
    refine ⟨List.cons_ne_nil _ _, ?_⟩
    rw [List.prefix_iff_eq_take.mp (List.takeWhile_prefix isSpace) |>.symm]
    simpa [hspace] using fun d hd => List.mem_takeWhile_imp hd
  | case2 =>
    refine fits_of_isPlain ?_ _ _
    have h := stringLength_kind c 0 rest
    simp only [List.mem_cons, List.not_mem_nil, or_false] at h
    rcases h with h | h <;> rw [h] <;> rfl
  | case3 _ _ kind hkind => simpa using fits_of_markKind? hkind
  | case6 => exact fits_of_isPlain (isPlain_signedLength c rest) _ _
  | case7 => exact fits_of_isPlain (isPlain_numericLength (c :: rest)) _ _
  | case9 _ _ _ _ _ _ hslash =>
    unfold slashLength
    split
    · exact ⟨_, by rw [hslash, Nat.add_comm, List.take_succ_cons]⟩
    · exact fits_of_isPlain rfl _ _
  | case10 _ _ _ _ _ _ _ hat => exact ⟨_, by rw [hat]⟩
  | case12 => exact fits_of_isPlain (isPlain_namedLength (c :: rest)) _ _
  | _ => exact fits_of_isPlain rfl _ _

/-- The first token of a text, and the tokens behind it. -/
theorem tokens_cons (c : Char) (rest : List Char) :
    tokens (c :: rest) = ⟨(scan c rest).1, c :: rest.take (scan c rest).2⟩ ::
      tokens (rest.drop (scan c rest).2) := by
  rw [tokens]

/-- The texts of all tokens go with their kinds. -/
theorem fits_of_mem_tokens (cs : List Char) {token : Token} (h : token ∈ tokens cs) :
    token.Fits := by
  induction cs using tokens.induct with
  | case1 => simp [tokens] at h
  | case2 c rest kind n hscan ih =>
    rw [tokens_cons, hscan] at h
    rcases List.mem_cons.mp h with rfl | h
    · simpa [hscan] using fits_scan c rest
    · exact ih h

/-- So does that of the first one. -/
theorem fits_of_tokens_eq_cons {cs : List Char} {token : Token} {toks : List Token}
    (h : tokens cs = token :: toks) : token.Fits :=
  fits_of_mem_tokens cs (h ▸ List.mem_cons_self)

end Restyle.Css
