import Mathlib.Data.Nat.Find
import Mathlib.Order.Bounds.Basic
import Mathlib.Tactic.SplitIfs
import Restyle.Merge.Nested

/-!
# Where nested selectors are joined

A key such as `&.active` under `.card:hover` should be joined to the selector in front of its first
pseudo-class, and nowhere inside of a bracket or a string (`Restyle.Merge.IsJoint`). What is inside
is told by the marks that are paired in the selector (`Restyle.Merge.IsInside`), and whether they
are can be decided by keeping those that are still to come (`Restyle.Merge.closesAll`).

The key is joined in front of the first colon, whatever that is a part of. This is in front of the
first pseudo-class exactly if no colon is hidden in what comes before, as in `a[href="x:y"]:hover`
(`Restyle.Merge.nestedSelector_ampersand`). A selector that hides no colon stays one with every key
that hides none, so that keys can be nested in keys (`Restyle.Merge.HidesNoColon`).
-/

namespace Restyle.Merge

/-! ### Marks in pairs -/

/-- The mark that closes what a mark opens. Quotes are closed by themselves. -/
def closerOf? : Char → Option Char
  | '(' => some ')'
  | '[' => some ']'
  | '"' => some '"'
  | '\'' => some '\''
  | _ => none

/-- Whether a character is a mark in front of the closing mark `around`, if anything is open. In a
string only the quote that closes it is one. -/
def isMark (around : Option Char) (c : Char) : Bool :=
  if around = some '"' ∨ around = some '\'' then around = some c
  else c ∈ ['"', '\'', '(', ')', '[', ']']

/-- **Text in front of the closing mark `around`**, in which the marks are in pairs. Behind a
backslash any character is a plain one. -/
inductive IsInside : Option Char → List Char → Prop
  | nil {around} : IsInside around []
  | escaped {around c rest} : IsInside around rest → IsInside around ('\\' :: c :: rest)
  | plain {around c rest} : c ≠ '\\' → ¬isMark around c → IsInside around rest →
      IsInside around (c :: rest)
  | paired {around opening closer inside rest} : isMark around opening → around ≠ some opening →
      closerOf? opening = some closer → IsInside (some closer) inside → IsInside around rest →
      IsInside around (opening :: (inside ++ closer :: rest))

/-- **The brackets, parentheses and quotes of a text are balanced.** For the front of such a text,
this says that its end is not inside of any. -/
def IsBalanced (text : List Char) : Prop := IsInside none text

/-! ### Marks that are still to come -/

variable {around : Option Char} {c closer : Char} {closers front back rest text : List Char}
  {n : Nat}

/-- The marks that are still to come behind a character, the next one first. There are none if it
closes what is not open. -/
def advance (closers : List Char) (c : Char) : Option (List Char) :=
  if isMark closers.head? c then
    if closers.head? = some c then some closers.tail else (closerOf? c).map (· :: closers)
  else some closers

/-- Whether a text closes all that is open and all that it opens. -/
def closesAll (closers : List Char) : List Char → Bool
  | [] => closers.isEmpty
  | '\\' :: [] => false
  | '\\' :: _ :: rest => closesAll closers rest
  | c :: rest =>
    match advance closers c with
    | some closers => closesAll closers rest
    | none => false

/-- A text that closes all that is open has the next mark in front of what closes the others. -/
def IsClosing : List Char → List Char → Prop
  | [], text => IsBalanced text
  | closer :: closers, text => ∃ inside rest, text = inside ++ closer :: rest ∧
      IsInside (some closer) inside ∧ IsClosing closers rest

/-- What may stand in front of a text inside may stand in front of a text that closes. -/
theorem IsClosing.prepend (front : List Char) (h : IsClosing closers rest)
    (hfront : ∀ inside, IsInside closers.head? inside → IsInside closers.head? (front ++ inside)) :
    IsClosing closers (front ++ rest) := by
  cases closers with
  | nil => exact hfront rest h
  | cons closer closers =>
    obtain ⟨inside, rest, rfl, hinside, hrest⟩ := h
    exact ⟨front ++ inside, rest, (List.append_assoc ..).symm, hfront inside hinside, hrest⟩

/-- A character in front, given what the text behind it closes. -/
theorem IsClosing.cons (hc : c ≠ '\\') {next : List Char} (hnext : advance closers c = some next)
    (h : IsClosing next rest) : IsClosing closers (c :: rest) := by
  unfold advance at hnext
  split_ifs at hnext with hmark hcloses
  · obtain rfl := Option.some.inj hnext
    cases closers with
    | nil => cases hcloses
    | cons closer closers =>
      obtain rfl := Option.some.inj hcloses
      exact ⟨[], rest, rfl, .nil, h⟩
  · obtain ⟨closer, hcloser, rfl⟩ := Option.map_eq_some_iff.mp hnext
    obtain ⟨inside, rest, rfl, hinside, hrest⟩ := h
    have hpair := hrest.prepend (c :: (inside ++ [closer])) fun text htext => by
      simpa using IsInside.paired hmark hcloses hcloser hinside htext
    simpa using hpair
  · obtain rfl := Option.some.inj hnext
    exact h.prepend [c] fun _ => .plain hc hmark

theorem closesAll_cons (hc : c ≠ '\\') {next : List Char} (hnext : advance closers c = some next)
    (rest : List Char) : closesAll closers (c :: rest) = closesAll next rest := by
  rw [closesAll, hnext]
  · exact fun h => absurd h hc
  · exact fun _ _ h => absurd h hc

theorem isClosing_of_closesAll (h : closesAll closers text) : IsClosing closers text := by
  induction closers, text using closesAll.induct with
  | case1 closers =>
    cases closers with
    | nil => exact .nil
    | cons => cases h
  | case2 => cases h
  | case3 closers c rest ih => exact (ih h).prepend ['\\', c] fun _ => .escaped
  | case4 closers c rest hlast hescaped next hnext ih =>
    have hc : c ≠ '\\' := by
      rintro rfl
      cases rest with
      | nil => exact hlast rfl rfl
      | cons d rest => exact hescaped d rest rfl rfl
    rw [closesAll_cons hc hnext] at h
    exact (ih h).cons hc hnext
  | case5 closers c rest hlast hescaped hnext =>
    rw [closesAll, hnext] at h
    · cases h
    · exact hlast
    · exact hescaped

/-- A mark in a pair needs no escape, and it is a mark where it closes. -/
theorem closerOf?_spec {opening : Char} (h : closerOf? opening = some closer) :
    opening ≠ '\\' ∧ closer ≠ '\\' ∧ isMark (some closer) closer := by
  unfold closerOf? at h
  split at h <;> cases h <;> decide

/-- **Behind a text with its marks in pairs, the same marks are still to come.** -/
theorem IsInside.closesAll_append (h : IsInside around text) (hhead : closers.head? = around)
    (rest : List Char) : closesAll closers (text ++ rest) = closesAll closers rest := by
  induction h generalizing closers rest with
  | nil => rfl
  | escaped _ ih => exact ih hhead rest
  | plain hc hmark _ ih =>
    have hnext : advance closers _ = some closers := if_neg (hhead ▸ hmark)
    rw [List.cons_append, closesAll_cons hc hnext, ih hhead]
  | @paired around opening closer inside text hmark hne hcloser _ _ ihinside ih =>
    obtain ⟨hopening, hclosing, hmark'⟩ := closerOf?_spec hcloser
    have hopens : advance closers opening = some (closer :: closers) := by
      rw [advance, hhead, if_pos hmark, if_neg hne, hcloser]
      rfl
    have hcloses : advance (closer :: closers) closer = some closers := by
      rw [advance, List.head?_cons, if_pos hmark', if_pos rfl, List.tail_cons]
    rw [List.cons_append, List.append_assoc, List.cons_append, closesAll_cons hopening hopens,
      ihinside rfl, closesAll_cons hclosing hcloses, ih hhead]

theorem isBalanced_iff_closesAll : IsBalanced text ↔ closesAll [] text := by
  refine ⟨fun h => ?_, isClosing_of_closesAll⟩
  rw [← List.append_nil text, h.closesAll_append rfl]
  rfl

instance (text : List Char) : Decidable (IsBalanced text) :=
  decidable_of_iff' _ isBalanced_iff_closesAll

/-- **Behind what is balanced, all that counts is the rest.** -/
theorem IsBalanced.append_iff (h : IsBalanced front) :
    IsBalanced (front ++ back) ↔ IsBalanced back := by
  rw [isBalanced_iff_closesAll, isBalanced_iff_closesAll, h.closesAll_append rfl]

/-! ### Where a key is joined -/

/-- **A seam of a selector**: its end, or a colon that is not its first character. -/
def IsSeam (text : List Char) (n : Nat) : Prop :=
  n = text.length ∨ 0 < n ∧ text[n]? = some ':'

instance (text : List Char) : DecidablePred (IsSeam text) := fun _ =>
  inferInstanceAs (Decidable (_ ∨ _))

theorem IsSeam.le_length (h : IsSeam text n) : n ≤ text.length := by
  rcases h with rfl | ⟨-, hcolon⟩
  · exact le_rfl
  · exact (List.getElem?_eq_some_iff.mp hcolon).1.le

/-- **The joint of a selector**: the first seam that is not inside of brackets or a string and not
escaped, so that it is in front of the first pseudo-class or at the end. -/
def IsJoint (text : List Char) (n : Nat) : Prop :=
  IsLeast {place | IsSeam text place ∧ IsBalanced (text.take place)} n

theorem IsBalanced.exists_isJoint (h : IsBalanced text) : ∃ n, IsJoint text n := by
  have hsome : ∃ n, IsSeam text n ∧ IsBalanced (text.take n) :=
    ⟨text.length, .inl rfl, by rwa [List.take_length]⟩
  exact ⟨Nat.find hsome, Nat.find_spec hsome, fun _ => Nat.find_min' hsome⟩

/-- The first colon behind the first character, or the end. -/
def firstSeam : List Char → Nat
  | [] => 0
  | _ :: rest => rest.findIdx (· = ':') + 1

theorem isSeam_firstSeam (text : List Char) : IsSeam text (firstSeam text) := by
  cases text with
  | nil => exact .inl rfl
  | cons first rest =>
    by_cases hcolon : rest.findIdx (· = ':') < rest.length
    · refine .inr ⟨Nat.succ_pos _, ?_⟩
      rw [firstSeam, List.getElem?_cons_succ, List.getElem?_eq_getElem hcolon]
      exact congrArg some (of_decide_eq_true (List.findIdx_getElem (w := hcolon)))
    · exact .inl (congrArg (· + 1) (le_antisymm List.findIdx_le_length (not_lt.mp hcolon)))

theorem isLeast_firstSeam (text : List Char) : IsLeast {n | IsSeam text n} (firstSeam text) := by
  refine ⟨isSeam_firstSeam text, fun n hn => ?_⟩
  cases text with
  | nil => exact Nat.zero_le n
  | cons first rest =>
    rcases hn with rfl | ⟨hpos, hcolon⟩
    · exact Nat.succ_le_succ List.findIdx_le_length
    · obtain ⟨n, rfl⟩ := Nat.exists_eq_succ_of_ne_zero hpos.ne'
      rw [Nat.succ_eq_add_one, List.getElem?_cons_succ] at hcolon
      obtain ⟨hlt, heq⟩ := List.getElem?_eq_some_iff.mp hcolon
      refine Nat.succ_le_succ (not_lt.mp fun hbefore => ?_)
      exact of_decide_eq_false (List.not_of_lt_findIdx hbefore) heq

theorem insertBeforeColon_eq (piece text : List Char) :
    insertBeforeColon piece text =
      text.take (text.findIdx (· = ':')) ++ piece ++ text.drop (text.findIdx (· = ':')) := by
  induction text with
  | nil => simp [insertBeforeColon]
  | cons c rest ih =>
    rw [insertBeforeColon, List.findIdx_cons]
    by_cases hc : c = ':'
    · simp [hc]
    · simp [hc, ih]

/-- What follows the `&` of a key is put into the first seam. -/
theorem toList_nestedSelector (parent suffix : String) :
    (nestedSelector parent ("&" ++ suffix)).toList =
      parent.toList.take (firstSeam parent.toList) ++ suffix.toList ++
        parent.toList.drop (firstSeam parent.toList) := by
  have hkey : ("&" ++ suffix).toList = '&' :: suffix.toList := by
    rw [String.toList_append]
    rfl
  rw [nestedSelector, hkey]
  cases parent.toList with
  | nil => simp [firstSeam]
  | cons first rest => simp [firstSeam, insertBeforeColon_eq]

/-- **Nested selectors are joined in front of the first colon.** What follows the `&` of a key is
put, in one piece, in front of the first colon of the selector that is not its first character, or
at the end. If brackets and quotes are balanced, the selector has a joint, which is not in front of
that place, and is that very place exactly if no colon comes before the joint. -/
theorem nestedSelector_ampersand (parent suffix : String) :
    ∃ n, IsLeast {place | IsSeam parent.toList place} n ∧
      (nestedSelector parent ("&" ++ suffix)).toList =
        parent.toList.take n ++ suffix.toList ++ parent.toList.drop n ∧
      (IsBalanced parent.toList → ∃ joint, IsJoint parent.toList joint ∧ n ≤ joint ∧
        (n = joint ↔ ∀ place < joint, ¬IsSeam parent.toList place)) := by
  obtain ⟨hseam, hfirst⟩ := isLeast_firstSeam parent.toList
  refine ⟨_, ⟨hseam, hfirst⟩, toList_nestedSelector parent suffix, fun h => ?_⟩
  obtain ⟨joint, hjoint⟩ := h.exists_isJoint
  have hle : firstSeam parent.toList ≤ joint := hfirst hjoint.1.1
  refine ⟨joint, hjoint, hle, fun heq place hlt hplace => ?_, fun hnone => ?_⟩
  · exact absurd (hfirst hplace) (not_le.mpr (heq ▸ hlt))
  · exact hle.eq_of_not_lt fun hlt => hnone _ hlt hseam

example : nestedSelector ":root" "&.dark" = ":root.dark" := by decide

/-- The first colon of `a[href^="https://x"]` is inside of a string. -/
theorem not_forall_nestedSelector_isJoint :
    ¬∀ parent suffix : String, IsBalanced parent.toList → ∃ n, IsJoint parent.toList n ∧
      (nestedSelector parent ("&" ++ suffix)).toList =
        parent.toList.take n ++ suffix.toList ++ parent.toList.drop n := by
  intro h
  let parent := "a[href^=\"https://x\"]"
  obtain ⟨n, ⟨hjoint, -⟩, heq⟩ := h parent ".b" (by decide +kernel)
  have hend : ∀ n ≤ parent.toList.length,
      IsSeam parent.toList n ∧ IsBalanced (parent.toList.take n) → n = parent.toList.length := by
    decide +kernel
  rw [hend n hjoint.1.le_length hjoint] at heq
  exact absurd heq (by decide +kernel)

/-! ### Keys nested in keys -/

/-- **A text that hides no colon**: its marks are balanced, and no colon is inside of any. -/
structure HidesNoColon (text : List Char) : Prop where
  balanced : IsBalanced text
  colons : ∀ place, text[place]? = some ':' → IsBalanced (text.take place)

theorem HidesNoColon.append (hfront : HidesNoColon front) (hback : HidesNoColon back) :
    HidesNoColon (front ++ back) := by
  refine ⟨hfront.balanced.append_iff.mpr hback.balanced, fun place hplace => ?_⟩
  rcases lt_or_ge place front.length with hlt | hge
  · rw [List.getElem?_append_left hlt] at hplace
    rw [List.take_append_of_le_length hlt.le]
    exact hfront.colons place hplace
  · rw [List.getElem?_append_right hge] at hplace
    rw [List.take_append, List.take_of_length_le hge, hfront.balanced.append_iff]
    exact hback.colons _ hplace

theorem HidesNoColon.of_append (h : HidesNoColon (front ++ back)) (hfront : IsBalanced front) :
    HidesNoColon front ∧ HidesNoColon back := by
  refine ⟨⟨hfront, fun place hplace => ?_⟩, hfront.append_iff.mp h.balanced, fun place hplace => ?_⟩
  · have hlt := (List.getElem?_eq_some_iff.mp hplace).1
    have hcolon := h.colons place (by rwa [List.getElem?_append_left hlt])
    rwa [List.take_append_of_le_length hlt.le] at hcolon
  · have hcolon := h.colons (front.length + place)
      (by rwa [List.getElem?_append_right (Nat.le_add_right ..), Nat.add_sub_cancel_left])
    rwa [List.take_length_add_append, hfront.append_iff] at hcolon

/-- A selector that hides no colon has its joint where keys are put. -/
theorem HidesNoColon.isJoint_firstSeam (h : HidesNoColon text) : IsJoint text (firstSeam text) := by
  obtain ⟨hseam, hfirst⟩ := isLeast_firstSeam text
  refine ⟨⟨hseam, ?_⟩, fun place hplace => hfirst hplace.1⟩
  rcases hseam with hend | ⟨-, hcolon⟩
  · rw [hend, List.take_length]
    exact h.balanced
  · exact h.colons _ hcolon

/-- A key is joined to such a selector without breaking it, and the outcome hides no colon. -/
theorem HidesNoColon.join {parent suffix : String} (hparent : HidesNoColon parent.toList)
    (hsuffix : HidesNoColon suffix.toList) :
    HidesNoColon (nestedSelector parent ("&" ++ suffix)).toList := by
  have hplace := hparent.isJoint_firstSeam.1.2
  rw [← List.take_append_drop (firstSeam parent.toList) parent.toList] at hparent
  obtain ⟨hfront, hback⟩ := hparent.of_append hplace
  rw [toList_nestedSelector]
  exact (hfront.append hsuffix).append hback

/-- **So however deep keys are nested, no selector is broken.** -/
theorem HidesNoColon.foldl_nestedSelector {selector : String} {suffixes : List String}
    (h : HidesNoColon selector.toList)
    (hsuffixes : ∀ suffix ∈ suffixes, HidesNoColon suffix.toList) :
    HidesNoColon (suffixes.foldl (fun parent suffix =>
      nestedSelector parent ("&" ++ suffix)) selector).toList := by
  induction suffixes generalizing selector with
  | nil => exact h
  | cons suffix rest ih =>
    obtain ⟨hsuffix, hrest⟩ := List.forall_mem_cons.mp hsuffixes
    exact ih (h.join hsuffix) hrest

end Restyle.Merge
