import Mathlib.Data.List.TakeWhile
import Mathlib.Tactic.SplitIfs
import Restyle.Proofs.Css.Tokens

/-!
# How far a token looks ahead

A token may depend on the text behind it: a name is a function if a bracket follows, an
escape takes a white space with it, a backslash takes almost anything. So a text that is cut
into tokens in one place need not be cut alike in another. It is, if what follows it there is
white space or a mark that is a token by itself (`Restyle.Css.isInert`), or nothing, up to three
things: white space must not take the place of a mark, since an escape would take it, and where
white space is followed, the text must not end with a backslash, an opening bracket or white
space (`Restyle.Css.EndsClosed`).

Each scanner has a lemma here: what it finds in a text is the same in front of `d :: r` and
of `ds`, if it does not reach beyond the text. `Restyle.Css.scan_giveWay` and
`Restyle.Css.tokens_giveWay` put them together.
-/

namespace Restyle.Css

/-! ### What may follow a text -/

/-- White space, and the marks that statements end with. -/
def isInert (c : Char) : Bool :=
  isSpace c || c == ';' || c == ':' || c == '\x7b' || c == '\x7d'

/-- A text whose last character does not look for more behind white space. -/
def EndsClosed (cs : List Char) : Prop :=
  ∀ c ∈ cs.getLast?, ¬isSpace c ∧ c ≠ '\\' ∧ c ≠ '('

/-- Whether a text is nothing, or starts with an inert character. -/
def StartsInert (cs : List Char) : Prop := ∀ c ∈ cs.head?, isInert c

/-- Behind a text, one character may give way to a text, or to nothing. -/
structure GivesWay (cs : List Char) (d : Char) (ds : List Char) : Prop where
  inert : isInert d
  inert' : StartsInert ds
  space : ∀ e ∈ ds.head?, isSpace e → isSpace d
  closed : isSpace d → EndsClosed cs

theorem isInert_iff {d : Char} :
    isInert d ↔ d = ' ' ∨ d = '\t' ∨ d = '\n' ∨ d = '\r' ∨ d = '\x0c' ∨ d = ';' ∨ d = ':' ∨
      d = '\x7b' ∨ d = '\x7d' := by
  simp [isInert, isSpace, or_assoc]

/-- What an inert character is not. -/
structure IsNeutral (d : Char) : Prop where
  digit : d.isDigit = false
  hex : isHexDigit d = false
  start : isNameStart d = false
  name : isNameChar d = false
  unprintable : isUnprintable d = false
  mark : d ∉ ['"', '\'', '(', ')', '*', '+', '-', '.', '/', '=', '>', '!', '%', '\\', 'e', 'E']

theorem IsNeutral.of_isInert {d : Char} (h : isInert d) : IsNeutral d := by
  rcases isInert_iff.mp h with rfl | rfl | rfl | rfl | rfl | rfl | rfl | rfl | rfl <;>
    constructor <;> decide

theorem StartsInert.isNeutral {ds : List Char} (h : StartsInert ds) :
    ∀ e ∈ ds.head?, IsNeutral e := fun e he => .of_isInert (h e he)

theorem StartsInert.not_isDigit {ds : List Char} (h : StartsInert ds) :
    ∀ e ∈ ds.head?, e.isDigit = false := fun e he => (h.isNeutral e he).digit

theorem startsInert_cons {d : Char} {ds : List Char} : StartsInert (d :: ds) ↔ isInert d := by
  simp [StartsInert]

theorem EndsClosed.of_suffix {cs ds : List Char} (h : EndsClosed cs) (hds : ds <:+ cs) :
    EndsClosed ds := by
  obtain ⟨front, rfl⟩ := hds
  intro c hc
  refine h c ?_
  rw [List.getLast?_append, hc]
  rfl

theorem GivesWay.of_suffix {cs back ds : List Char} {d : Char} (h : GivesWay cs d ds)
    (hback : back <:+ cs) : GivesWay back d ds where
  inert := h.inert
  inert' := h.inert'
  space := h.space
  closed hd := (h.closed hd).of_suffix hback

theorem GivesWay.inert_cons {cs ds r : List Char} {d : Char} (h : GivesWay cs d ds) :
    StartsInert (d :: r) := by
  simp [StartsInert, h.inert]

theorem GivesWay.tail {c d : Char} {cs ds : List Char} (h : GivesWay (c :: cs) d ds) :
    GivesWay cs d ds :=
  h.of_suffix (List.suffix_cons c cs)

theorem GivesWay.drop {cs ds : List Char} {d : Char} (h : GivesWay cs d ds) (n : Nat) :
    GivesWay (cs.drop n) d ds :=
  h.of_suffix (List.drop_suffix n cs)

/-- Behind one character, white space means that it looks for no more. -/
theorem GivesWay.singleton {c d : Char} {ds : List Char} (h : GivesWay [c] d ds) (hd : isSpace d) :
    ¬isSpace c ∧ c ≠ '\\' ∧ c ≠ '(' :=
  h.closed hd c (by simp)

theorem GivesWay.isSpace_eq_false {cs ds : List Char} {d e : Char} (h : GivesWay cs d ds)
    (hd : isSpace d = false) (he : e ∈ ds.head?) : isSpace e = false := by
  by_contra hspace
  simp [h.space e he (by simpa using hspace)] at hd

theorem isNewline_eq_false {d : Char} (h : isSpace d = false) : isNewline d = false := by
  simp_all [isSpace, isNewline]

section

variable {d : Char} {r ds : List Char}

/-! ### Runs -/

theorem takeWhile_append_of_neg {p : Char → Bool} (hds : ∀ e ∈ ds.head?, p e = false)
    (cs : List Char) : (cs ++ ds).takeWhile p = cs.takeWhile p := by
  induction cs with
  | nil => cases ds <;> simp_all
  | cons c cs ih => by_cases h : p c <;> simp [h, ih]

theorem dropWhile_append_of_neg {p : Char → Bool} (hds : ∀ e ∈ ds.head?, p e = false)
    (cs : List Char) : (cs ++ ds).dropWhile p = cs.dropWhile p ++ ds := by
  induction cs with
  | nil => cases ds <;> simp_all
  | cons c cs ih => by_cases h : p c <;> simp [h, ih]

/-- The longest run of characters of a class in front of a text, and the rest. -/
theorem exists_run (p : Char → Bool) (cs : List Char) :
    ∃ run rest, cs = run ++ rest ∧ (∀ c ∈ run, p c) ∧ ∀ e ∈ rest.head?, ¬p e := by
  refine ⟨cs.takeWhile p, cs.dropWhile p, List.takeWhile_append_dropWhile.symm, ?_, ?_⟩
  · exact fun c hc => List.mem_takeWhile_imp hc
  · intro e he
    have := List.head?_dropWhile_not p cs
    simp_all

/-! ### Escapes -/

theorem newlineLength_eq_zero_iff {c : Char} {cs : List Char} :
    newlineLength (c :: cs) = 0 ↔ isNewline c = false := by
  unfold newlineLength
  split
  · simp_all [isNewline]
  · split_ifs <;> simp_all
  · simp_all

theorem newlineLength_eq_zero_of_head? {cs : List Char} (h : ∀ c ∈ cs.head?, isNewline c = false) :
    newlineLength cs = 0 := by
  cases cs with
  | nil => rfl
  | cons c cs => exact newlineLength_eq_zero_iff.mpr (h c rfl)

theorem newlineLength_cons_cons (c e : Char) (cs : List Char) :
    newlineLength (c :: e :: cs) =
      if c = '\r' ∧ e = '\n' then 2 else if isNewline c then 1 else 0 := by
  by_cases h : c = '\r' ∧ e = '\n'
  · obtain ⟨rfl, rfl⟩ := h
    rfl
  · rw [if_neg h]
    unfold newlineLength
    split
    · simp_all
    · next heq =>
      cases heq
      rfl
    · simp_all

/-- A backslash in front of a text is in front of a line end or not, whatever follows. -/
theorem newlineLength_backslash {cs : List Char} (h : GivesWay ('\\' :: cs) d ds)
    (r : List Char) : newlineLength (cs ++ ds) = 0 ↔ newlineLength (cs ++ d :: r) = 0 := by
  cases cs with
  | cons c cs => simp only [List.cons_append, newlineLength_eq_zero_iff]
  | nil =>
    have hspace : isSpace d = false := by
      by_contra hspace
      exact (h.singleton (by simpa using hspace)).2.1 rfl
    rw [List.nil_append, List.nil_append, newlineLength_eq_zero_of_head? fun e he =>
      isNewline_eq_false (h.isSpace_eq_false hspace he)]
    simp [newlineLength_eq_zero_iff, isNewline_eq_false hspace]

theorem newlineLength_giveWay {c : Char} {cs : List Char} (h : GivesWay (c :: cs) d ds)
    (hle : newlineLength (c :: cs ++ d :: r) ≤ cs.length + 1) :
    newlineLength (c :: cs ++ ds) = newlineLength (c :: cs ++ d :: r) := by
  cases cs with
  | cons e cs => rw [List.cons_append, List.cons_append, List.cons_append, List.cons_append,
      newlineLength_cons_cons, newlineLength_cons_cons]
  | nil =>
    rw [List.cons_append, List.nil_append] at hle
    rw [List.cons_append, List.nil_append, List.cons_append, List.nil_append]
    rw [newlineLength_cons_cons] at hle ⊢
    have hd : ¬(c = '\r' ∧ d = '\n') := by
      intro heq
      simp [heq] at hle
    rw [if_neg hd]
    cases ds with
    | nil =>
      unfold newlineLength
      split <;> simp_all
    | cons e ds =>
      have he : ¬(c = '\r' ∧ e = '\n') := by
        rintro ⟨rfl, rfl⟩
        exact absurd (by decide) (h.singleton (h.space '\n' rfl (by decide))).1
      rw [newlineLength_cons_cons, if_neg he]

theorem escapeEndLength_giveWay {cs : List Char} (h : GivesWay cs d ds)
    (hle : escapeEndLength (cs ++ d :: r) ≤ cs.length) :
    escapeEndLength (cs ++ ds) = escapeEndLength (cs ++ d :: r) := by
  cases cs with
  | cons c cs =>
    simp only [List.cons_append, escapeEndLength] at hle ⊢
    split_ifs at hle ⊢
    · rfl
    · exact newlineLength_giveWay h hle
  | nil =>
    have hspace : isSpace d = false := by
      by_contra hspace
      simp only [List.nil_append, List.length_nil, escapeEndLength] at hle
      split_ifs at hle with htab
      · omega
      · rw [Nat.le_zero, newlineLength_eq_zero_iff] at hle
        simp_all [isSpace, isNewline]
    have hlength (cs : List Char) (h : ∀ e ∈ cs.head?, isSpace e = false) :
        escapeEndLength cs = 0 := by
      cases cs with
      | nil => rfl
      | cons e cs =>
        have he := h e rfl
        rw [escapeEndLength, if_neg (by rintro (rfl | rfl) <;> simp [isSpace] at he),
          newlineLength_eq_zero_iff]
        exact isNewline_eq_false he
    rw [List.nil_append, List.nil_append, hlength (d :: r) (by simpa using hspace),
      hlength ds fun e he => h.isSpace_eq_false hspace he]

/-- The digits of an escape end where the text does. -/
theorem takeWhile_take_append {p : Char → Bool} (hds : ∀ e ∈ ds.head?, p e = false) (n : Nat)
    (cs : List Char) : ((cs ++ ds).take n).takeWhile p = (cs.take n).takeWhile p := by
  rw [List.take_append, takeWhile_append_of_neg]
  intro e he
  refine hds e ?_
  rw [List.head?_take] at he
  split_ifs at he
  · cases he
  · exact he

theorem escapeLength_giveWay {cs : List Char} (h : GivesWay cs d ds)
    (hle : escapeLength (cs ++ d :: r) ≤ cs.length) :
    escapeLength (cs ++ ds) = escapeLength (cs ++ d :: r) := by
  have hhex : ∀ e ∈ (d :: r).head?, isHexDigit e = false := by
    simpa using (IsNeutral.of_isInert h.inert).hex
  have hhex' : ∀ e ∈ ds.head?, isHexDigit e = false := fun e he => (h.inert'.isNeutral e he).hex
  have hdigits : ((cs.take 6).takeWhile isHexDigit).length ≤ cs.length :=
    (List.takeWhile_prefix _).length_le.trans ((List.take_prefix 6 cs).length_le)
  unfold escapeLength at hle ⊢
  simp only [takeWhile_take_append hhex, takeWhile_take_append hhex'] at hle ⊢
  split_ifs at hle ⊢
  · simp only [List.length_append, List.length_cons] at hle ⊢
    omega
  · rw [List.drop_append_of_le_length hdigits] at hle ⊢
    rw [List.drop_append_of_le_length hdigits, escapeEndLength_giveWay (h.drop _)]
    rw [List.length_drop]
    omega

/-! ### Names -/

/-- A name has at least the characters of the escape that it begins in. -/
theorem min_le_nameLength (skip : Nat) (cs : List Char) :
    min skip cs.length ≤ nameLength skip cs := by
  induction cs generalizing skip with
  | nil => simp
  | cons c cs ih =>
    cases skip with
    | zero => simp
    | succ skip =>
      have := ih skip
      rw [nameLength, List.length_cons]
      omega

theorem nameLength_giveWay {skip : Nat} {cs : List Char} (h : GivesWay cs d ds)
    (hle : nameLength skip (cs ++ d :: r) ≤ cs.length) :
    nameLength skip (cs ++ ds) = nameLength skip (cs ++ d :: r) := by
  have hd := IsNeutral.of_isInert h.inert
  have hds := h.inert'.isNeutral
  induction cs generalizing skip with
  | nil =>
    cases skip with
    | zero =>
      -- an inert character is no part of a name, and no backslash either
      have hzero {c : Char} (hc : IsNeutral c) (cs : List Char) : nameLength 0 (c :: cs) = 0 := by
        have hmark := hc.mark
        simp_all [nameLength, hc.name]
      cases ds with
      | nil => rw [List.nil_append, List.nil_append, hzero hd, nameLength]
      | cons e ds => rw [List.nil_append, List.nil_append, hzero hd, hzero (hds e rfl)]
    | succ skip =>
      rw [List.nil_append, nameLength, List.length_nil] at hle
      omega
  | cons c cs ih =>
    simp only [List.cons_append, List.length_cons] at hle ⊢
    cases skip with
    | succ skip =>
      rw [nameLength] at hle ⊢
      rw [nameLength, ih h.tail (by omega)]
    | zero =>
      rw [nameLength] at hle ⊢
      rw [nameLength]
      by_cases hname : isNameChar c
      · rw [if_pos hname] at hle ⊢
        rw [if_pos hname, ih h.tail (by omega)]
      · rw [if_neg hname] at hle ⊢
        rw [if_neg hname]
        by_cases hc : c = '\\'
        · subst hc
          have hnewline := newlineLength_backslash h r
          by_cases hzero : newlineLength (cs ++ d :: r) = 0
          · -- the escape ends in the text because the name does
            have hmin := min_le_nameLength (escapeLength (cs ++ d :: r)) (cs ++ d :: r)
            simp only [hzero, hnewline, and_self, if_true] at hle ⊢
            simp only [List.length_append, List.length_cons] at hmin
            rw [escapeLength_giveWay (r := r) h.tail (by omega), ih h.tail (by omega)]
          · simp [hzero, hnewline]
        · simp [hc]

/-- An inert character starts no name. -/
theorem startsName_of_startsInert (h : StartsInert ds) : startsName ds = false := by
  cases ds with
  | nil => rfl
  | cons d ds =>
    have hd := h.isNeutral d rfl
    have hmark := hd.mark
    unfold startsName
    split
    · simp_all
    · simp_all
    · next heq =>
      cases heq
      exact hd.start
    · rfl

theorem startsName_minus_of_startsInert (h : StartsInert ds) : startsName ('-' :: ds) = false := by
  cases ds with
  | nil => decide
  | cons d ds =>
    have hd := h.isNeutral d rfl
    have hmark := hd.mark
    simp only [List.mem_cons, not_or] at hmark
    simp [startsName, hd.start, hmark]

theorem startsName_giveWay {cs : List Char} (h : GivesWay cs d ds) :
    startsName (cs ++ ds) = startsName (cs ++ d :: r) := by
  match cs with
  | [] =>
    rw [List.nil_append, List.nil_append, startsName_of_startsInert h.inert',
      startsName_of_startsInert h.inert_cons]
  | [c] =>
    by_cases hminus : c = '-'
    · rw [hminus, List.cons_append, List.nil_append, List.cons_append, List.nil_append,
        startsName_minus_of_startsInert h.inert',
        startsName_minus_of_startsInert h.inert_cons]
    · by_cases hback : c = '\\'
      · subst hback
        have hnewline := newlineLength_backslash h r
        simp only [List.cons_append, List.nil_append] at hnewline ⊢
        simp [startsName, hnewline]
      · simp [startsName, hminus]
  | c :: e :: cs =>
    by_cases hminus : c = '-'
    · simp [startsName, hminus]
    · by_cases hback : c = '\\'
      · simp [startsName, hback, newlineLength_eq_zero_iff]
      · simp [startsName, hminus]

/-! ### Strings and comments -/

theorem stringLength_succ (quote : Char) (skip : Nat) (c : Char) (cs : List Char) :
    stringLength quote (skip + 1) (c :: cs) =
      ((stringLength quote skip cs).1, (stringLength quote skip cs).2 + 1) := rfl

/-- The length of what a backslash in a string takes with it. -/
def stringEscapeLength (cs : List Char) : Nat :=
  if newlineLength cs = 0 then escapeLength cs else newlineLength cs

theorem stringLength_zero (quote c : Char) (cs : List Char) :
    stringLength quote 0 (c :: cs) =
      if c = quote then (.string, 1)
      else if isNewline c then (.brokenString, 0)
      else ((stringLength quote (if c = '\\' then stringEscapeLength cs else 0) cs).1,
        (stringLength quote (if c = '\\' then stringEscapeLength cs else 0) cs).2 + 1) := rfl

theorem min_le_stringLength (quote : Char) (skip : Nat) (cs : List Char) :
    min skip cs.length ≤ (stringLength quote skip cs).2 := by
  induction cs generalizing skip with
  | nil => simp
  | cons c cs ih =>
    cases skip with
    | zero => simp
    | succ skip =>
      have := ih skip
      rw [stringLength_succ, List.length_cons]
      omega

theorem stringEscapeLength_giveWay {cs : List Char} (h : GivesWay ('\\' :: cs) d ds)
    (hle : stringEscapeLength (cs ++ d :: r) ≤ cs.length) :
    stringEscapeLength (cs ++ ds) = stringEscapeLength (cs ++ d :: r) := by
  have hnewline := newlineLength_backslash h r
  unfold stringEscapeLength at hle ⊢
  by_cases hzero : newlineLength (cs ++ d :: r) = 0
  · rw [if_pos hzero] at hle ⊢
    rw [if_pos (hnewline.mpr hzero), escapeLength_giveWay h.tail hle]
  · rw [if_neg hzero] at hle ⊢
    rw [if_neg (mt hnewline.mp hzero)]
    cases cs with
    | nil =>
      rw [List.nil_append, List.length_nil] at hle
      exact absurd (Nat.le_zero.mp hle) hzero
    | cons c cs => exact newlineLength_giveWay h.tail hle

/-- A string that is closed is closed whatever follows it. -/
theorem stringLength_giveWay {quote : Char} (hquote : d ≠ quote) {skip : Nat} {cs : List Char}
    (h : GivesWay cs d ds) (hkind : (stringLength quote skip (cs ++ d :: r)).1 ≠ .brokenString)
    (hle : (stringLength quote skip (cs ++ d :: r)).2 ≤ cs.length) :
    stringLength quote skip (cs ++ ds) = stringLength quote skip (cs ++ d :: r) := by
  induction cs generalizing skip with
  | nil =>
    cases skip with
    | zero =>
      -- a string that the text does not close goes on behind it
      rw [List.nil_append, stringLength_zero, if_neg hquote] at hkind hle
      split_ifs at hkind hle
      · exact absurd rfl hkind
      all_goals simp at hle
    | succ skip => simp [stringLength_succ] at hle
  | cons c cs ih =>
    simp only [List.cons_append, List.length_cons] at hkind hle ⊢
    cases skip with
    | succ skip =>
      rw [stringLength_succ] at hkind hle ⊢
      rw [stringLength_succ, ih h.tail hkind (by omega)]
    | zero =>
      rw [stringLength_zero] at hkind hle ⊢
      rw [stringLength_zero]
      split_ifs at hkind hle ⊢ with hclose hnewline hback
      · rfl
      · rfl
      · subst hback
        have hmin := min_le_stringLength quote (stringEscapeLength (cs ++ d :: r)) (cs ++ d :: r)
        simp only [List.length_append, List.length_cons] at hmin hle
        rw [stringEscapeLength_giveWay (r := r) h (by omega), ih h.tail hkind (by omega)]
      · rw [ih h.tail hkind (by simpa using hle)]

theorem commentLength_cons (c : Char) (cs : List Char) :
    commentLength (c :: cs) =
      if c = '*' ∧ cs.head? = some '/' then 2 else 1 + commentLength cs := by
  by_cases h : c = '*' ∧ cs.head? = some '/'
  · obtain ⟨rfl, hhead⟩ := h
    obtain ⟨more, rfl⟩ := List.head?_eq_some_iff.mp hhead
    rfl
  · rw [if_neg h, commentLength.eq_2]
    rintro more rfl rfl
    exact h ⟨rfl, rfl⟩

/-- A comment that is closed is closed whatever follows it. -/
theorem commentLength_giveWay {cs : List Char} (h : isInert d)
    (hle : commentLength (cs ++ d :: r) ≤ cs.length) :
    commentLength (cs ++ ds) = commentLength (cs ++ d :: r) := by
  have hmark := (IsNeutral.of_isInert h).mark
  simp only [List.mem_cons, not_or] at hmark
  induction cs with
  | nil => simp [commentLength_cons, hmark] at hle
  | cons c cs ih =>
    simp only [List.cons_append, List.length_cons] at hle ⊢
    rw [commentLength_cons] at hle ⊢
    rw [commentLength_cons]
    cases cs with
    | nil =>
      have hlast : 1 + commentLength (d :: r) ≤ 1 := by simpa [hmark] using hle
      have hstar : ¬(d = '*' ∧ r.head? = some '/') := fun hclose => by simp [hclose] at hmark
      rw [commentLength_cons, if_neg hstar] at hlast
      omega
    | cons e cs =>
      by_cases hclose : c = '*' ∧ e = '/'
      · simp [hclose]
      · simp only [List.cons_append, List.head?_cons, Option.some.injEq, if_neg hclose] at hle ih ⊢
        rw [ih (by omega)]

/-! ### Addresses -/

theorem brokenAddressLength_succ (skip : Nat) (c : Char) (cs : List Char) :
    brokenAddressLength (skip + 1) (c :: cs) = 1 + brokenAddressLength skip cs := rfl

theorem brokenAddressLength_cons_cons (c e : Char) (cs : List Char) :
    brokenAddressLength 0 (c :: e :: cs) =
      if c = ')' then 1
      else
        1 + brokenAddressLength (if c = '\\' ∧ (e = ')' ∨ e = '\\') then 1 else 0) (e :: cs) := by
  rw [brokenAddressLength]
  by_cases hback : c = '\\' ∧ (e = ')' ∨ e = '\\') <;> simp [hback]

theorem brokenAddressLength_giveWay {skip : Nat} {cs : List Char} (h : isInert d)
    (hle : brokenAddressLength skip (cs ++ d :: r) ≤ cs.length) :
    brokenAddressLength skip (cs ++ ds) = brokenAddressLength skip (cs ++ d :: r) := by
  have hmark := (IsNeutral.of_isInert h).mark
  simp only [List.mem_cons, not_or] at hmark
  have hnil : brokenAddressLength 0 (d :: r) ≠ 0 := by
    rw [brokenAddressLength, if_neg hmark.2.2.2.1]
    split_ifs <;> omega
  induction cs generalizing skip with
  | nil =>
    cases skip with
    | zero => exact absurd (Nat.le_zero.mp hle) hnil
    | succ skip => simp [brokenAddressLength] at hle
  | cons c cs ih =>
    simp only [List.cons_append, List.length_cons] at hle ⊢
    cases skip with
    | succ skip =>
      rw [brokenAddressLength_succ] at hle ⊢
      rw [brokenAddressLength_succ, ih (by omega)]
    | zero =>
      by_cases hclose : c = ')'
      · simp [brokenAddressLength, hclose]
      · cases cs with
        | nil =>
          -- the address would go on with the inert character, which closes nothing
          rw [List.nil_append, brokenAddressLength_cons_cons, if_neg hclose,
            if_neg (by simp [hmark]), List.length_nil] at hle
          omega
        | cons e cs =>
          simp only [List.cons_append, List.length_cons, brokenAddressLength_cons_cons,
            if_neg hclose] at hle ih ⊢
          rw [ih (by omega)]

theorem addressLength_succ (skip : Nat) (c : Char) (cs : List Char) :
    addressLength (skip + 1) (c :: cs) =
      ((addressLength skip cs).1, (addressLength skip cs).2 + 1) := rfl

theorem min_le_addressLength (skip : Nat) (cs : List Char) :
    min skip cs.length ≤ (addressLength skip cs).2 := by
  induction cs generalizing skip with
  | nil => simp
  | cons c cs ih =>
    cases skip with
    | zero => simp
    | succ skip =>
      have := ih skip
      rw [addressLength_succ, List.length_cons]
      omega

/-- The kind and the length of what white space in an address is followed by. -/
def addressEndLength (cs : List Char) : Kind × Nat :=
  let spaces := (cs.takeWhile isSpace).length
  match cs.dropWhile isSpace with
  | [] => (.address, spaces)
  | ')' :: _ => (.address, spaces + 1)
  | _ :: more => (.brokenAddress, spaces + 1 + brokenAddressLength 0 more)

theorem addressLength_zero (c : Char) (cs : List Char) :
    addressLength 0 (c :: cs) =
      if isSpace c then ((addressEndLength cs).1, (addressEndLength cs).2 + 1)
      else if c = ')' then (.address, 1)
      else if isUnprintable c || c == '"' || c == '\'' || c == '(' then
        (.brokenAddress, 1 + brokenAddressLength 0 cs)
      else if c = '\\' then
        if newlineLength cs = 0 then
          ((addressLength (escapeLength cs) cs).1, (addressLength (escapeLength cs) cs).2 + 1)
        else (.brokenAddress, 1 + brokenAddressLength 0 cs)
      else ((addressLength 0 cs).1, (addressLength 0 cs).2 + 1) := by
  rw [addressLength, addressEndLength]
  split_ifs
  · cases cs.dropWhile isSpace with
    | nil => simp [Nat.add_comm]
    | cons next more =>
      by_cases hclose : next = ')'
      · simp [hclose, Nat.add_comm, Nat.add_left_comm]
      · simp
        omega
  all_goals rfl

/-- White space that an address ends with does not reach what follows it. -/
theorem addressEndLength_giveWay {cs : List Char} (h : isInert d)
    (hle : (addressEndLength (cs ++ d :: r)).2 ≤ cs.length) :
    addressEndLength (cs ++ ds) = addressEndLength (cs ++ d :: r) := by
  obtain ⟨run, rest, rfl, hrun, hrest⟩ := exists_run isSpace cs
  cases rest with
  | nil =>
    -- the white space reaches what follows, and so would the address
    have hmark := (IsNeutral.of_isInert h).mark
    simp only [List.mem_cons, not_or] at hmark
    simp only [List.append_nil, addressEndLength, List.takeWhile_append_of_pos hrun,
      List.dropWhile_append_of_pos hrun, List.length_append] at hle
    by_cases hd : isSpace d
    · rw [List.takeWhile_cons_of_pos hd, List.length_cons] at hle
      split at hle <;> simp only [] at hle <;> omega
    · rw [List.takeWhile_cons_of_neg hd, List.dropWhile_cons_of_neg hd] at hle
      split at hle <;> simp_all
      omega
  | cons e rest =>
    have he : ¬isSpace e := hrest e rfl
    simp only [List.append_assoc, List.cons_append, addressEndLength,
      List.takeWhile_append_of_pos hrun, List.dropWhile_append_of_pos hrun,
      List.takeWhile_cons_of_neg he, List.dropWhile_cons_of_neg he, List.append_nil,
      List.length_append, List.length_cons] at hle ⊢
    by_cases hclose : e = ')'
    · simp [hclose]
    · simp only at hle ⊢
      rw [brokenAddressLength_giveWay (r := r) h (by omega)]

theorem addressLength_giveWay {skip : Nat} {cs : List Char} (h : GivesWay cs d ds)
    (hle : (addressLength skip (cs ++ d :: r)).2 ≤ cs.length) :
    addressLength skip (cs ++ ds) = addressLength skip (cs ++ d :: r) := by
  induction cs generalizing skip with
  | nil =>
    cases skip with
    | zero =>
      rw [List.nil_append, addressLength_zero, List.length_nil] at hle
      split_ifs at hle <;> simp at hle
    | succ skip => simp [addressLength_succ] at hle
  | cons c cs ih =>
    simp only [List.cons_append, List.length_cons] at hle ⊢
    cases skip with
    | succ skip =>
      rw [addressLength_succ] at hle ⊢
      rw [addressLength_succ, ih h.tail (by simpa using hle)]
    | zero =>
      rw [addressLength_zero] at hle ⊢
      rw [addressLength_zero]
      -- one case for each kind of character that an address can go on with
      by_cases hspace : isSpace c
      · rw [if_pos hspace] at hle ⊢
        rw [if_pos hspace, addressEndLength_giveWay (r := r) h.inert (by simpa using hle)]
      rw [if_neg hspace] at hle ⊢
      rw [if_neg hspace]
      by_cases hclose : c = ')'
      · rw [if_pos hclose, if_pos hclose]
      rw [if_neg hclose] at hle ⊢
      rw [if_neg hclose]
      by_cases hbad : (isUnprintable c || c == '"' || c == '\'' || c == '(') = true
      · rw [if_pos hbad] at hle ⊢
        rw [if_pos hbad, brokenAddressLength_giveWay (r := r) h.inert (by omega)]
      rw [if_neg hbad] at hle ⊢
      rw [if_neg hbad]
      by_cases hback : c = '\\'
      · subst hback
        have hnewline := newlineLength_backslash h r
        rw [if_pos rfl] at hle ⊢
        rw [if_pos rfl]
        by_cases hzero : newlineLength (cs ++ d :: r) = 0
        · -- the escape ends in the text because the address does
          rw [if_pos hzero] at hle ⊢
          rw [if_pos (hnewline.mpr hzero)]
          have hmin := min_le_addressLength (escapeLength (cs ++ d :: r)) (cs ++ d :: r)
          simp only [List.length_append, List.length_cons] at hmin hle
          rw [escapeLength_giveWay (r := r) h.tail (by omega), ih h.tail (by omega)]
        · rw [if_neg hzero] at hle ⊢
          rw [if_neg (mt hnewline.mp hzero),
            brokenAddressLength_giveWay (r := r) h.inert (by omega)]
      · rw [if_neg hback] at hle ⊢
        rw [if_neg hback, ih h.tail (by simpa using hle)]

/-- An opening bracket, and no more than white space behind it, is not in front of white
space. -/
theorem GivesWay.not_space_of_openRound {run : List Char} (h : GivesWay ('(' :: run) d ds)
    (hrun : ∀ c ∈ run, isSpace c) : ¬isSpace d := by
  intro hd
  have hlast : ('(' :: run).getLast? = some (('(' :: run).getLast (List.cons_ne_nil _ _)) :=
    List.getLast?_eq_some_getLast _
  obtain ⟨hspace, -, hopen⟩ := h.closed hd _ hlast
  rcases List.mem_cons.mp (List.getLast_mem (List.cons_ne_nil '(' run)) with hmem | hmem
  · exact hopen hmem
  · exact hspace (hrun _ hmem)

/-- What follows `url(` is cut alike, if `url(` is not all there is. -/
theorem urlLength_giveWay {cs : List Char} (h : GivesWay ('(' :: cs) d ds)
    (hle : (urlLength (cs ++ d :: r)).2 ≤ cs.length) :
    urlLength (cs ++ ds) = urlLength (cs ++ d :: r) := by
  have hmark := (IsNeutral.of_isInert h.inert).mark
  simp only [List.mem_cons, not_or] at hmark
  obtain ⟨run, rest, rfl, hrun, hrest⟩ := exists_run isSpace cs
  cases rest with
  | nil =>
    -- what follows would be white space or part of the address, and neither can be
    rw [List.append_nil] at h
    have hd : ¬isSpace d := h.not_space_of_openRound hrun
    have hpos : 0 < (addressLength 0 (d :: r)).2 := by
      rw [addressLength_zero]
      split_ifs <;> dsimp only <;> omega
    simp only [List.append_nil, urlLength, List.takeWhile_append_of_pos hrun,
      List.dropWhile_append_of_pos hrun, List.takeWhile_cons_of_neg hd,
      List.dropWhile_cons_of_neg hd, hmark, or_self, if_false] at hle
    omega
  | cons e rest =>
    have he : ¬isSpace e := hrest e rfl
    simp only [List.append_assoc, List.cons_append, urlLength,
      List.takeWhile_append_of_pos hrun, List.dropWhile_append_of_pos hrun,
      List.takeWhile_cons_of_neg he, List.dropWhile_cons_of_neg he, List.append_nil,
      List.length_append, List.length_cons] at hle ⊢
    by_cases hquote : e = '"' ∨ e = '\''
    · rw [if_pos hquote, if_pos hquote]
    rw [if_neg hquote] at hle ⊢
    rw [if_neg hquote]
    by_cases hclose : e = ')'
    · rw [if_pos hclose, if_pos hclose]
    rw [if_neg hclose] at hle ⊢
    rw [if_neg hclose]
    have hsuffix : e :: rest <:+ '(' :: (run ++ e :: rest) :=
      List.suffix_cons_iff.mpr (.inr (List.suffix_append run _))
    have haddress : addressLength 0 (e :: rest ++ ds) =
        addressLength 0 (e :: rest ++ d :: r) := by
      refine addressLength_giveWay (h.of_suffix hsuffix) ?_
      simp only [List.cons_append, List.length_cons]
      omega
    rw [List.cons_append, List.cons_append] at haddress
    rw [haddress]

/-! ### Numbers -/

theorem startsUnsigned_append (h : StartsInert ds) (cs : List Char) :
    startsUnsigned (cs ++ ds) = startsUnsigned cs := by
  match cs, ds with
  | cs, [] => rw [List.append_nil]
  | [], d :: ds =>
    have hd := h.isNeutral d rfl
    have hmark := hd.mark
    simp only [List.mem_cons, not_or] at hmark
    unfold startsUnsigned
    split
    · simp_all
    · next heq =>
      cases heq
      exact hd.digit
    · rfl
  | [c], d :: ds =>
    by_cases hdot : c = '.'
    · simp [hdot, startsUnsigned, (h.isNeutral d rfl).digit]
    · simp [startsUnsigned, hdot]
  | c :: e :: cs, _ =>
    by_cases hdot : c = '.'
    · simp [hdot, startsUnsigned]
    · simp [startsUnsigned, hdot]

/-- The length of the fraction of a number, its point included. -/
def fractionLength : List Char → Nat
  | '.' :: c :: rest => if c.isDigit then 1 + ((c :: rest).takeWhile Char.isDigit).length else 0
  | _ => 0

/-- The length of the exponent of a number. -/
def exponentLength : List Char → Nat
  | e :: c :: rest =>
    if e = 'e' ∨ e = 'E' then
      if c.isDigit then 1 + ((c :: rest).takeWhile Char.isDigit).length
      else if c = '+' ∨ c = '-' then
        match (rest.takeWhile Char.isDigit).length with
        | 0 => 0
        | n + 1 => 2 + (n + 1)
      else 0
    else 0
  | _ => 0

theorem numberLength_eq (cs : List Char) :
    numberLength cs = (cs.takeWhile Char.isDigit).length +
      fractionLength (cs.dropWhile Char.isDigit) +
      exponentLength ((cs.dropWhile Char.isDigit).drop
        (fractionLength (cs.dropWhile Char.isDigit))) := rfl

theorem fractionLength_append (h : StartsInert ds) (cs : List Char) :
    fractionLength (cs ++ ds) = fractionLength cs := by
  match cs, ds with
  | cs, [] => rw [List.append_nil]
  | [], d :: ds =>
    have hmark := (h.isNeutral d rfl).mark
    simp only [List.mem_cons, not_or] at hmark
    cases ds <;> simp [fractionLength, hmark]
  | [c], d :: ds =>
    by_cases hdot : c = '.'
    · simp [hdot, fractionLength, (h.isNeutral d rfl).digit]
    · simp [fractionLength, hdot]
  | c :: e :: cs, ds =>
    by_cases hdot : c = '.'
    · simp only [hdot, List.cons_append, fractionLength]
      rw [← List.cons_append, takeWhile_append_of_neg h.not_isDigit]
    · simp [fractionLength, hdot]

theorem exponentLength_append (h : StartsInert ds) (cs : List Char) :
    exponentLength (cs ++ ds) = exponentLength cs := by
  match cs, ds with
  | cs, [] => rw [List.append_nil]
  | [], d :: ds =>
    have hmark := (h.isNeutral d rfl).mark
    simp only [List.mem_cons, not_or] at hmark
    cases ds <;> simp [exponentLength, hmark]
  | [c], d :: ds =>
    have hd := h.isNeutral d rfl
    have hmark := hd.mark
    simp only [List.mem_cons, not_or] at hmark
    simp [exponentLength, hd.digit, hmark]
  | c :: e :: cs, ds =>
    simp only [List.cons_append, exponentLength]
    rw [← List.cons_append, takeWhile_append_of_neg h.not_isDigit,
      takeWhile_append_of_neg h.not_isDigit]

theorem fractionLength_le (cs : List Char) : fractionLength cs ≤ cs.length := by
  unfold fractionLength
  split
  · next c rest =>
    have := (List.takeWhile_prefix (l := c :: rest) Char.isDigit).length_le
    split_ifs <;> simp only [List.length_cons] at this ⊢ <;> omega
  · omega

/-- A number ends where the text does. -/
theorem numberLength_append (h : StartsInert ds) (cs : List Char) :
    numberLength (cs ++ ds) = numberLength cs := by
  rw [numberLength_eq, numberLength_eq, takeWhile_append_of_neg h.not_isDigit,
    dropWhile_append_of_neg h.not_isDigit, fractionLength_append h,
    List.drop_append_of_le_length (fractionLength_le _), exponentLength_append h]

theorem exponentLength_le (cs : List Char) : exponentLength cs ≤ cs.length := by
  unfold exponentLength
  split
  · next e c rest =>
    have hfirst := (List.takeWhile_prefix (l := c :: rest) Char.isDigit).length_le
    have hsecond := (List.takeWhile_prefix (l := rest) Char.isDigit).length_le
    simp only [List.length_cons] at hfirst ⊢
    split_ifs
    · omega
    · split <;> omega
    all_goals omega
  · omega

theorem numberLength_le (cs : List Char) : numberLength cs ≤ cs.length := by
  have hrun : (cs.takeWhile Char.isDigit).length + (cs.dropWhile Char.isDigit).length =
      cs.length := by
    rw [← List.length_append, List.takeWhile_append_dropWhile]
  have hfraction := fractionLength_le (cs.dropWhile Char.isDigit)
  have hexponent := exponentLength_le
    ((cs.dropWhile Char.isDigit).drop (fractionLength (cs.dropWhile Char.isDigit)))
  rw [List.length_drop] at hexponent
  rw [numberLength_eq]
  omega

/-- The kind and the length of a number, by the text behind its digits. -/
theorem numericLength_eq (cs : List Char) :
    numericLength cs =
      if (cs.drop (numberLength cs)).head? = some '%' then (.percentage, numberLength cs + 1)
      else if startsName (cs.drop (numberLength cs)) then
        (.dimension, numberLength cs + nameLength 0 (cs.drop (numberLength cs)))
      else (.number, numberLength cs) := by
  unfold numericLength
  cases hrest : cs.drop (numberLength cs) with
  | nil => simp [hrest]
  | cons e rest => by_cases hpercent : e = '%' <;> simp [hrest, hpercent]

/-- What follows a text is none of some characters, nor is what gives way to it. -/
theorem head?_giveWay {cs : List Char} (h : GivesWay cs d ds) {c : Char} (hc : ¬isInert c) :
    (cs ++ ds).head? = some c ↔ (cs ++ d :: r).head? = some c := by
  cases cs with
  | nil =>
    have hd : d ≠ c := fun heq => hc (heq ▸ h.inert)
    have hds : ds.head? ≠ some c := fun heq => hc (h.inert' c heq)
    simp [hd, hds]
  | cons e cs => simp

/-- A text in front of an inert character starts with any other character by itself. -/
theorem exists_cons_of_head? (hd : isInert d) {c : Char} (hc : ¬isInert c) {cs : List Char}
    (h : (cs ++ d :: r).head? = some c) : ∃ rest, cs = c :: rest := by
  cases cs with
  | nil =>
    obtain rfl : d = c := Option.some.inj h
    exact absurd hd hc
  | cons e rest =>
    obtain rfl : e = c := Option.some.inj h
    exact ⟨rest, rfl⟩

theorem numericLength_giveWay {cs : List Char} (h : GivesWay cs d ds)
    (hle : (numericLength (cs ++ d :: r)).2 ≤ cs.length) :
    numericLength (cs ++ ds) = numericLength (cs ++ d :: r) := by
  have hrest := h.drop (numberLength cs)
  have hlength := List.length_drop (i := numberLength cs) (l := cs)
  have hnumber := numberLength_le cs
  rw [numericLength_eq] at hle ⊢
  rw [numericLength_eq]
  simp only [numberLength_append h.inert_cons, numberLength_append h.inert',
    List.drop_append_of_le_length (numberLength_le cs)] at hle ⊢
  by_cases hpercent : (cs.drop (numberLength cs) ++ d :: r).head? = some '%'
  · rw [if_pos hpercent, if_pos ((head?_giveWay hrest (by decide)).mpr hpercent)]
  rw [if_neg hpercent] at hle ⊢
  rw [if_neg (mt (head?_giveWay hrest (by decide)).mp hpercent),
    startsName_giveWay (r := r) hrest]
  by_cases hname : startsName (cs.drop (numberLength cs) ++ d :: r)
  · rw [if_pos hname] at hle ⊢
    rw [if_pos hname, nameLength_giveWay (r := r) hrest (by dsimp only at hle; omega)]
  · rw [if_neg hname, if_neg hname]

/-! ### Names and functions -/

theorem namedLength_eq (cs : List Char) :
    namedLength cs =
      if (cs.drop (nameLength 0 cs)).head? = some '(' then
        if foldedName (cs.take (nameLength 0 cs)) = "url" then
          ((urlLength (cs.drop (nameLength 0 cs + 1))).1,
            nameLength 0 cs + 1 + (urlLength (cs.drop (nameLength 0 cs + 1))).2)
        else (.function, nameLength 0 cs + 1)
      else (.name, nameLength 0 cs) := by
  unfold namedLength
  rw [← List.drop_drop]
  cases hrest : cs.drop (nameLength 0 cs) with
  | nil => simp [hrest]
  | cons e rest => by_cases hopen : e = '(' <;> simp [hrest, hopen]

theorem namedLength_giveWay {cs : List Char} (h : GivesWay cs d ds)
    (hle : (namedLength (cs ++ d :: r)).2 ≤ cs.length) :
    namedLength (cs ++ ds) = namedLength (cs ++ d :: r) := by
  rw [namedLength_eq] at hle
  have hname : nameLength 0 (cs ++ d :: r) ≤ cs.length := by
    split_ifs at hle <;> dsimp only at hle <;> omega
  have hsame : nameLength 0 (cs ++ ds) = nameLength 0 (cs ++ d :: r) :=
    nameLength_giveWay h hname
  rw [namedLength_eq, namedLength_eq, hsame]
  generalize nameLength 0 (cs ++ d :: r) = n at hle hname
  have hrest := h.drop n
  rw [List.drop_append_of_le_length hname] at hle ⊢
  rw [List.drop_append_of_le_length hname]
  by_cases hopen : (cs.drop n ++ d :: r).head? = some '('
  · rw [if_pos hopen] at hle ⊢
    rw [if_pos ((head?_giveWay hrest (by decide)).mpr hopen)]
    -- the bracket is in the text, so that only what is behind it is left to be cut
    obtain ⟨rest, hbracket⟩ := exists_cons_of_head? h.inert (by decide) hopen
    have hlength := List.length_drop (i := n) (l := cs)
    rw [hbracket, List.length_cons] at hlength
    have hdrop (x : List Char) : (cs ++ x).drop (n + 1) = rest ++ x := by
      rw [← List.drop_drop, List.drop_append_of_le_length hname, hbracket]
      rfl
    rw [List.take_append_of_le_length hname, hdrop] at hle ⊢
    rw [List.take_append_of_le_length hname, hdrop]
    by_cases hurl : foldedName (cs.take n) = "url"
    · rw [if_pos hurl] at hle ⊢
      rw [if_pos hurl, urlLength_giveWay (r := r) (hbracket ▸ hrest) (by dsimp only at hle; omega)]
    · rw [if_neg hurl, if_neg hurl]
  · rw [if_neg hopen, if_neg (mt (head?_giveWay hrest (by decide)).mp hopen)]

/-- A name that starts a token is cut alike, counted from behind its first character. -/
theorem behindFirst_namedLength_giveWay {c : Char} {cs : List Char} (h : GivesWay (c :: cs) d ds)
    (hle : (behindFirst (namedLength (c :: (cs ++ d :: r)))).2 ≤ cs.length) :
    behindFirst (namedLength (c :: (cs ++ ds))) =
      behindFirst (namedLength (c :: (cs ++ d :: r))) := by
  have hwhole : (namedLength (c :: cs ++ d :: r)).2 ≤ (c :: cs).length := by
    rw [behindFirst] at hle
    simp only [List.cons_append, List.length_cons] at hle ⊢
    omega
  exact congrArg behindFirst (namedLength_giveWay h hwhole)

/-- So is a number. -/
theorem behindFirst_numericLength_giveWay {c : Char} {cs : List Char}
    (h : GivesWay (c :: cs) d ds)
    (hle : (behindFirst (numericLength (c :: (cs ++ d :: r)))).2 ≤ cs.length) :
    behindFirst (numericLength (c :: (cs ++ ds))) =
      behindFirst (numericLength (c :: (cs ++ d :: r))) := by
  have hwhole : (numericLength (c :: cs ++ d :: r)).2 ≤ (c :: cs).length := by
    rw [behindFirst] at hle
    simp only [List.cons_append, List.length_cons] at hle ⊢
    omega
  exact congrArg behindFirst (numericLength_giveWay h hwhole)

/-! ### Any token -/

theorem continuesName_giveWay {cs : List Char} (h : GivesWay cs d ds) :
    continuesName (cs ++ ds) = continuesName (cs ++ d :: r) := by
  have hnil {ds : List Char} (h : StartsInert ds) : continuesName ds = false := by
    cases ds with
    | nil => rfl
    | cons d ds =>
      have hd := h.isNeutral d rfl
      have hmark := hd.mark
      simp only [List.mem_cons, not_or] at hmark
      simp [continuesName, startsName_of_startsInert h, hd.digit, hmark]
  cases cs with
  | nil => rw [List.nil_append, List.nil_append, hnil h.inert', hnil h.inert_cons]
  | cons e cs =>
    have hname : startsName (e :: cs ++ ds) = startsName (e :: cs ++ d :: r) :=
      startsName_giveWay h
    simp only [List.cons_append] at hname ⊢
    rw [continuesName, continuesName, hname]

theorem isPrefixOf_giveWay {piece : List Char} (hfirm : piece.all (!isInert ·)) {cs : List Char}
    (h : GivesWay cs d ds) :
    piece.isPrefixOf (cs ++ ds) = piece.isPrefixOf (cs ++ d :: r) := by
  induction piece generalizing cs with
  | nil => rfl
  | cons p piece ih =>
    rw [List.all_cons, Bool.and_eq_true, Bool.not_eq_true'] at hfirm
    obtain ⟨hp, hpiece⟩ := hfirm
    cases cs with
    | nil =>
      have hnil {ds : List Char} (h : StartsInert ds) : (p :: piece).isPrefixOf ds = false := by
        cases ds with
        | nil => rfl
        | cons e ds =>
          have he : p ≠ e := by
            rintro rfl
            exact absurd (h p rfl) (Bool.eq_false_iff.mp hp)
          rw [List.isPrefixOf_cons_cons, beq_eq_false_iff_ne.mpr he, Bool.false_and]
      rw [List.nil_append, List.nil_append, hnil h.inert', hnil h.inert_cons]
    | cons e cs =>
      rw [List.cons_append, List.cons_append, List.isPrefixOf_cons_cons,
        List.isPrefixOf_cons_cons, ih hpiece h.tail]

theorem signedLength_giveWay {c : Char} {cs : List Char} (h : GivesWay (c :: cs) d ds)
    (hle : (signedLength c (cs ++ d :: r)).2 ≤ cs.length) :
    signedLength c (cs ++ ds) = signedLength c (cs ++ d :: r) := by
  have harrow : ['-', '>'].isPrefixOf (cs ++ ds) = ['-', '>'].isPrefixOf (cs ++ d :: r) :=
    isPrefixOf_giveWay (by decide) h.tail
  have hname : startsName (c :: cs ++ ds) = startsName (c :: cs ++ d :: r) :=
    startsName_giveWay h
  rw [List.cons_append, List.cons_append] at hname
  unfold signedLength at hle ⊢
  rw [startsUnsigned_append h.inert_cons] at hle ⊢
  rw [startsUnsigned_append h.inert', harrow, hname]
  split_ifs at hle ⊢ with hunsigned hminus hstop hstarts
  · exact numericLength_giveWay h.tail hle
  · rfl
  · exact behindFirst_namedLength_giveWay h hle
  · rfl
  · rfl

theorem slashLength_giveWay {cs : List Char} (h : GivesWay cs d ds)
    (hle : (slashLength (cs ++ d :: r)).2 ≤ cs.length) :
    slashLength (cs ++ ds) = slashLength (cs ++ d :: r) := by
  have hnil {ds : List Char} (h : StartsInert ds) : slashLength ds = (.other, 0) := by
    cases ds with
    | nil => rfl
    | cons d ds =>
      have hmark := (h.isNeutral d rfl).mark
      simp only [List.mem_cons, not_or] at hmark
      simp [slashLength, hmark]
  cases cs with
  | nil => rw [List.nil_append, List.nil_append, hnil h.inert', hnil h.inert_cons]
  | cons e cs =>
    by_cases hstar : e = '*'
    · simp only [hstar, List.cons_append, slashLength, List.length_cons] at hle ⊢
      rw [commentLength_giveWay (r := r) h.inert (by omega)]
    · simp [slashLength, hstar]

theorem markLength_giveWay (c : Char) {cs : List Char} (h : GivesWay cs d ds) :
    markLength c (cs ++ ds) = markLength c (cs ++ d :: r) := by
  have hcomment : ['!', '-', '-'].isPrefixOf (cs ++ ds) =
      ['!', '-', '-'].isPrefixOf (cs ++ d :: r) :=
    isPrefixOf_giveWay (by decide) h
  have hequals : (cs ++ ds).head? = some '=' ↔ (cs ++ d :: r).head? = some '=' :=
    head?_giveWay h (by decide)
  simp only [markLength, hcomment, hequals]

/-- White space that ends where a text does is followed by a mark. -/
theorem takeWhile_isSpace_giveWay {cs : List Char} (h : GivesWay cs d ds)
    (hle : ((cs ++ d :: r).takeWhile isSpace).length ≤ cs.length) :
    (cs ++ ds).takeWhile isSpace = (cs ++ d :: r).takeWhile isSpace := by
  obtain ⟨run, rest, rfl, hrun, hrest⟩ := exists_run isSpace cs
  cases rest with
  | nil =>
    have hd : isSpace d = false := by
      by_contra hd
      rw [List.append_nil, List.takeWhile_append_of_pos hrun,
        List.takeWhile_cons_of_pos (by simpa using hd), List.length_append, List.length_cons] at hle
      omega
    rw [List.append_nil, takeWhile_append_of_neg fun e he => h.isSpace_eq_false hd he,
      takeWhile_append_of_neg (by simpa using hd)]
  | cons e rest =>
    have he : ¬isSpace e := hrest e rfl
    simp [List.takeWhile_append_of_pos hrun, he]

/-- **A token that ends where a text does, or before, is the same whatever follows the
text**, within the limits of what may give way to what. -/
theorem scan_giveWay {c : Char} {cs : List Char} (h : GivesWay (c :: cs) d ds)
    (hkind : (scan c (cs ++ d :: r)).1 ≠ .brokenString)
    (hle : (scan c (cs ++ d :: r)).2 ≤ cs.length) :
    scan c (cs ++ ds) = scan c (cs ++ d :: r) := by
  -- all that decides which scanner it is looks no further than what may give way
  have hname : startsName (c :: (cs ++ ds)) = startsName (c :: (cs ++ d :: r)) :=
    startsName_giveWay h
  have hbehind : startsName (cs ++ ds) = startsName (cs ++ d :: r) :=
    startsName_giveWay h.tail
  have hcontinues : continuesName (cs ++ ds) = continuesName (cs ++ d :: r) :=
    continuesName_giveWay h.tail
  have hunsigned {ds : List Char} (hds : StartsInert ds) :
      startsUnsigned (c :: (cs ++ ds)) = startsUnsigned (c :: cs) :=
    startsUnsigned_append hds (c :: cs)
  unfold scan at hkind hle ⊢
  simp only [hunsigned h.inert_cons, hunsigned h.inert', hname, hbehind, hcontinues] at hkind hle ⊢
  by_cases hspace : isSpace c
  · rw [if_pos hspace] at hle ⊢
    rw [if_pos hspace, takeWhile_isSpace_giveWay h.tail hle]
  rw [if_neg hspace] at hkind hle ⊢
  rw [if_neg hspace]
  by_cases hquote : c = '"' ∨ c = '\''
  · rw [if_pos hquote] at hkind hle ⊢
    have hd : d ≠ c := by
      have hmark := (IsNeutral.of_isInert h.inert).mark
      simp only [List.mem_cons, not_or] at hmark
      rcases hquote with rfl | rfl
      · exact hmark.1
      · exact hmark.2.1
    rw [if_pos hquote, stringLength_giveWay hd h.tail hkind hle]
  rw [if_neg hquote] at hkind hle ⊢
  rw [if_neg hquote]
  cases hmark : markKind? c with
  | some kind => rfl
  | none =>
    simp only [hmark] at hle ⊢
    split_ifs at hle ⊢ with hhash hgo hsign hdigit hnumber hslash hat hword hstarts
    · rw [nameLength_giveWay (r := r) h.tail hle]
    · rfl
    · exact signedLength_giveWay h hle
    · exact behindFirst_numericLength_giveWay h hle
    · rfl
    · exact slashLength_giveWay h.tail hle
    · rw [nameLength_giveWay (r := r) h.tail hle]
    · rfl
    · exact behindFirst_namedLength_giveWay h hle
    · rw [markLength_giveWay (r := r) c h.tail]

/-- **A text that is cut into tokens in front of one character is cut alike in front of
another** that may give way to it, if none of its strings is broken. -/
theorem tokens_giveWay {toks : List Token} {cs : List Char}
    (hwhole : ∀ token ∈ toks, token.kind ≠ .brokenString) (htext : toks.flatMap Token.text = cs)
    (h : GivesWay cs d ds) (htokens : tokens (cs ++ d :: r) = toks ++ tokens (d :: r)) :
    tokens (cs ++ ds) = toks ++ tokens (ds) := by
  induction toks generalizing cs with
  | nil =>
    subst htext
    rfl
  | cons token toks ih =>
    cases cs with
    | nil =>
      rw [List.nil_append, tokens_cons] at htokens
      have htoken := (List.cons.inj htokens).1
      simp [← htoken] at htext
    | cons c cs =>
      rw [List.cons_append, tokens_cons] at htokens ⊢
      obtain ⟨rfl, hrest⟩ := List.cons.inj htokens
      rw [List.flatMap_cons, List.cons_append, List.cons.injEq] at htext
      -- the first token is within the text, since it is one of those that make it up
      have hlength := congrArg List.length htext.2
      simp only [List.length_append, List.length_take, List.length_cons] at hlength
      have hle : (scan c (cs ++ d :: r)).2 ≤ cs.length := by omega
      rw [scan_giveWay h (hwhole _ List.mem_cons_self) hle]
      rw [List.take_append_of_le_length hle] at htext ⊢
      rw [List.drop_append_of_le_length hle] at hrest ⊢
      have hflat : toks.flatMap Token.text = cs.drop (scan c (cs ++ d :: r)).2 := by
        have hsplit := htext.2.trans (List.take_append_drop (scan c (cs ++ d :: r)).2 cs).symm
        exact List.append_cancel_left hsplit
      rw [ih (fun token htoken => hwhole token (List.mem_cons_of_mem _ htoken)) hflat
        (h.tail.drop _) hrest, List.take_append_of_le_length hle, List.cons_append]

end

end Restyle.Css
