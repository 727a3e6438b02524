import Mathlib.Data.List.Infix
import Restyle.Text.Search

/-!
# Where a piece is

Searches are by recursion on the text; the facts about them are told in terms of prefixes
and infixes.
-/

namespace Restyle.Text

theorem startsWith_iff {piece cs : List Char} : startsWith piece cs ↔ piece <+: cs := by
  rw [startsWith, Option.isSome_iff_exists]
  constructor
  · rintro ⟨rest, hrest⟩
    exact ⟨rest, (strip?_eq_some_iff.mp hrest).symm⟩
  · rintro ⟨rest, hrest⟩
    exact ⟨rest, strip?_eq_some_iff.mpr hrest.symm⟩

theorem contains_iff {piece cs : List Char} : contains piece cs ↔ piece <:+: cs := by
  induction cs with
  | nil => simp [contains]
  | cons c cs ih => rw [contains, Bool.or_eq_true, startsWith_iff, ih, List.infix_cons_iff]

theorem contains_eq_false_iff {piece cs : List Char} :
    contains piece cs = false ↔ ¬piece <:+: cs := by
  rw [← contains_iff, Bool.not_eq_true]

/-! ### Where a piece cannot be -/

section Infix

variable {piece front back cs : List Char}

/-- A piece does not begin in what its first character is not in. -/
theorem infix_of_infix_append_left (hfront : ∀ p ∈ piece.head?, p ∉ front)
    (h : piece <:+: front ++ cs) : piece <:+: cs := by
  induction front with
  | nil => exact h
  | cons c front ih =>
    have hrest : ∀ p ∈ piece.head?, p ∉ front :=
      fun p hp hmem => hfront p hp (List.mem_cons_of_mem _ hmem)
    rw [List.cons_append, List.infix_cons_iff] at h
    rcases h with h | h
    · cases piece with
      | nil => exact List.nil_infix
      | cons p tail =>
        obtain ⟨rfl, -⟩ := List.cons_prefix_cons.mp h
        exact absurd List.mem_cons_self (hfront _ rfl)
    · exact ih hrest h

/-- And it does not end in what its last character is not in. -/
theorem infix_of_infix_append_right (hback : ∀ p ∈ piece.getLast?, p ∉ back)
    (h : piece <:+: cs ++ back) : piece <:+: cs := by
  rw [← List.reverse_infix] at h ⊢
  rw [List.reverse_append] at h
  refine infix_of_infix_append_left (fun p hp => ?_) h
  rw [List.head?_reverse] at hp
  simpa using hback p hp

/-- **A piece in two texts** is in one of them, unless it is cut between characters of its
own. -/
theorem infix_or_of_append_eq {before after : List Char}
    (h : front ++ back = before ++ (piece ++ after))
    (hcut : ∀ c ∈ front.getLast?, ∀ d ∈ back.head?, c ∈ piece → d ∉ piece) :
    piece <:+: front ∨ ∃ more, before = front ++ more ∧ back = more ++ (piece ++ after) := by
  rcases List.append_eq_append_iff.mp h with ⟨more, hbefore, hback⟩ | ⟨more, hfront, hpiece⟩
  · exact .inr ⟨more, hbefore, hback⟩
  rcases List.append_eq_append_iff.mp hpiece with ⟨rest, hmore, -⟩ | ⟨rest, hcuts, hback⟩
  · exact .inl ⟨before, rest, by rw [hfront, hmore, List.append_assoc]⟩
  -- the cut is inside the piece, or at one of its ends
  rcases List.eq_nil_or_concat more with rfl | ⟨init, c, rfl⟩
  · exact .inr ⟨[], by simpa using hfront.symm, by simpa using hpiece.symm⟩
  rw [List.concat_eq_append] at hfront hcuts
  cases rest with
  | nil => exact .inl ⟨before, [], by rw [hfront, hcuts]; simp⟩
  | cons d rest =>
    have hc : c ∈ front.getLast? := by simp [hfront]
    have hd : d ∈ back.head? := by simp [hback]
    exact absurd (by simp [hcuts]) (hcut c hc d hd (by simp [hcuts]))

/-- A piece is on one side of a character that it does not have. -/
theorem infix_or_of_infix_append_cons {c : Char} (hc : c ∉ piece)
    (h : piece <:+: front ++ c :: back) : piece <:+: front ∨ piece <:+: back := by
  obtain ⟨before, after, hcs⟩ := h
  rw [List.append_assoc] at hcs
  rcases infix_or_of_append_eq hcs.symm (by simp [hc]) with hinfix | ⟨more, -, hmore⟩
  · exact .inl hinfix
  · cases more with
    | nil =>
      cases piece with
      | nil => exact .inr (List.nil_infix)
      | cons p piece =>
        obtain ⟨rfl, -⟩ := List.cons.inj hmore
        exact absurd List.mem_cons_self hc
    | cons d more =>
      obtain ⟨-, rfl⟩ := List.cons.inj hmore
      exact .inr ⟨more, after, List.append_assoc _ _ _⟩

theorem infix_append_cons_iff {c : Char} (hc : c ∉ piece) :
    piece <:+: front ++ c :: back ↔ piece <:+: front ∨ piece <:+: back := by
  constructor
  · exact infix_or_of_infix_append_cons hc
  · rintro (hfront | hback)
    · exact hfront.trans (List.prefix_append _ _).isInfix
    · exact hback.trans ((List.suffix_cons c back).trans (List.suffix_append _ _)).isInfix

end Infix

/-! ### Cutting at a piece -/

theorem cutAt?_eq_some {piece cs before after : List Char}
    (h : cutAt? piece cs = some (before, after)) : cs = before ++ (piece ++ after) := by
  induction cs generalizing before with
  | nil =>
    rw [cutAt?] at h
    split_ifs at h with hpiece
    obtain ⟨rfl, rfl⟩ := Prod.mk.inj (Option.some.inj h)
    simpa using hpiece
  | cons c cs ih =>
    rw [cutAt?] at h
    cases hstrip : strip? piece (c :: cs) with
    | some rest =>
      simp only [hstrip, Option.some.injEq, Prod.mk.injEq] at h
      rw [← h.1, ← h.2, List.nil_append]
      exact strip?_eq_some_iff.mp hstrip
    | none =>
      simp only [hstrip, Option.map_eq_some_iff, Prod.mk.injEq] at h
      obtain ⟨cut, hcut, rfl, rfl⟩ := h
      rw [ih hcut, List.cons_append]

theorem isSome_cutAt?_iff {piece cs : List Char} : (cutAt? piece cs).isSome ↔ piece <:+: cs := by
  induction cs with
  | nil => simp [cutAt?]
  | cons c cs ih =>
    rw [cutAt?, List.infix_cons_iff, ← ih, ← startsWith_iff, startsWith]
    cases strip? piece (c :: cs) <;> simp

/-! ### Searches in strings -/

theorem stripString?_eq_some_iff {piece text rest : String} :
    stripString? piece text = some rest ↔ text = piece ++ rest := by
  rw [stripString?, Option.map_eq_some_iff, ← String.toList_inj, String.toList_append]
  constructor
  · rintro ⟨cs, hcs, rfl⟩
    rw [strip?_eq_some_iff.mp hcs, String.toList_ofList]
  · intro h
    exact ⟨rest.toList, strip?_eq_some_iff.mpr h, String.ofList_toList⟩

theorem stringContains_iff {piece text : String} :
    stringContains piece text ↔ piece.toList <:+: text.toList :=
  contains_iff

theorem stringStartsWith_iff {piece text : String} :
    stringStartsWith piece text ↔ piece.toList <+: text.toList :=
  startsWith_iff

theorem stringStartsWith_iff_exists {piece text : String} :
    stringStartsWith piece text ↔ ∃ rest, text = piece ++ rest := by
  rw [stringStartsWith_iff]
  constructor
  · rintro ⟨rest, hrest⟩
    exact ⟨String.ofList rest, by rw [← String.toList_inj]; simp [hrest]⟩
  · rintro ⟨rest, rfl⟩
    exact ⟨rest.toList, (String.toList_append ..).symm⟩

/-! ### Characters of a literal

A text is kept as bytes, and decoding these takes long where a table of many texts is looked at.
The bytes of a text in ASCII are its characters.
-/

/-- The characters of a text, read off its bytes if these are in ASCII. -/
def chars (text : String) : List Char :=
  let bytes := text.toByteArray.data.toList
  if bytes.all (·.toNat < 128) then bytes.map (Char.ofNat ·.toNat) else text.toList

theorem utf8EncodeChar_ofNat {n : Nat} (h : n < 128) :
    String.utf8EncodeChar (Char.ofNat n) = [UInt8.ofNat n] := by
  have hvalid : n.isValidChar := .inl (by omega)
  have hval : (Char.ofNat n).val.toNat = n := by
    rw [Char.ofNat, dif_pos hvalid]
    rfl
  rw [String.utf8EncodeChar, hval, if_pos (by omega)]

theorem flatMap_utf8EncodeChar {bytes : List UInt8} (h : bytes.all (·.toNat < 128)) :
    (bytes.map (Char.ofNat ·.toNat)).flatMap String.utf8EncodeChar = bytes := by
  induction bytes with
  | nil => rfl
  | cons b bytes ih =>
    rw [List.all_cons, Bool.and_eq_true, decide_eq_true_eq] at h
    rw [List.map_cons, List.flatMap_cons, ih h.2, utf8EncodeChar_ofNat h.1, UInt8.ofNat_toNat,
      List.singleton_append]

theorem toList_eq_chars (text : String) : text.toList = chars text := by
  rw [chars]
  split_ifs with hascii
  · rw [← String.ofList_inj, String.ofList_toList]
    apply String.toByteArray_inj.mp
    apply ByteArray.ext
    rw [String.toByteArray_ofList, List.utf8Encode, flatMap_utf8EncodeChar hascii,
      List.data_toByteArray]
  · rfl

/-! ### Texts that differ -/

/-- Two texts **differ** if they have another character at a place that both of them have. -/
def differ : List Char → List Char → Bool
  | x :: xs, y :: ys => x != y || differ xs ys
  | _, _ => false

section Differ

variable {xs ys zs : List Char}

/-- Whatever follows, texts that differ are no beginnings of each other. -/
theorem not_prefix_of_differ (h : differ xs ys) (zs : List Char) : ¬xs <+: ys ++ zs := by
  induction xs generalizing ys with
  | nil => cases ys <;> cases h
  | cons x xs ih =>
    cases ys with
    | nil => cases h
    | cons y ys =>
      rw [List.cons_append, List.cons_prefix_cons]
      rintro ⟨rfl, hxs⟩
      rw [differ, bne_self_eq_false, Bool.false_or] at h
      exact ih h hxs

theorem not_prefix_both_of_differ (h : differ xs ys) : ¬(xs <+: zs ∧ ys <+: zs) := by
  rintro ⟨hxs, rest, rfl⟩
  exact not_prefix_of_differ h rest hxs

end Differ

/-- Up to its first occurrence, a character decides what a text begins with. -/
theorem prefix_append_cons_iff {name front : List Char} {c : Char} (hc : c ∉ name)
    (rest : List Char) : name ++ [c] <+: front ++ c :: rest ↔ name ++ [c] <+: front ++ [c] := by
  induction name generalizing front with
  | nil => cases front <;> simp
  | cons x name ih =>
    rw [List.mem_cons, not_or] at hc
    obtain ⟨hne, hname⟩ := hc
    cases front with
    | nil => simp [Ne.symm hne]
    | cons d front =>
      simp only [List.cons_append, List.cons_prefix_cons]
      rw [ih hname]

/-! ### Removing a piece -/

theorem removeAll_piece {piece : List Char} (hne : piece ≠ []) (cs : List Char) :
    removeAll piece (piece ++ cs) = removeAll piece cs := by
  obtain ⟨p, tail, rfl⟩ := List.exists_cons_of_ne_nil hne
  rw [List.cons_append, removeAll]
  simp only [if_pos]
  have hstrip : strip? tail (tail ++ cs) = some cs := strip?_eq_some_iff.mpr rfl
  split
  · next after hafter =>
    rw [hstrip] at hafter
    cases hafter
    rfl
  · next hnone =>
    rw [hstrip] at hnone
    cases hnone

/-- A character where the piece does not start stays. -/
theorem removeAll_cons {piece : List Char} {c : Char} {cs : List Char} (h : ¬piece <+: c :: cs) :
    removeAll piece (c :: cs) = c :: removeAll piece cs := by
  cases piece with
  | nil => exact absurd List.nil_prefix h
  | cons p tail =>
    rw [removeAll]
    split_ifs with hc
    · subst hc
      split
      · next after hafter =>
        exact absurd ⟨after, by rw [List.cons_append, ← strip?_eq_some_iff.mp hafter]⟩ h
      · rfl
    · rfl

/-- A text in which the piece does not start stays. -/
theorem removeAll_append {piece : List Char} (cs : List Char) {text : List Char}
    (h : ∀ front back, text = front ++ back → back ≠ [] → ¬piece <+: back ++ cs) :
    removeAll piece (text ++ cs) = text ++ removeAll piece cs := by
  induction text with
  | nil => rfl
  | cons c text ih =>
    have hc : ¬piece <+: c :: (text ++ cs) := h [] (c :: text) rfl (List.cons_ne_nil _ _)
    rw [List.cons_append, removeAll_cons hc, ih, List.cons_append]
    intro front back htext
    exact h (c :: front) back (by rw [htext, List.cons_append])

end Restyle.Text
