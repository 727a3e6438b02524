import Mathlib.Data.List.TakeWhile
import Restyle.Color.Value
import Restyle.Proofs.Text.Search
import Restyle.Proofs.Text.Words

/-!
# Bare triples

Version 4 puts `hsl()` around a value that is the bare components of a colour. Which values
these are is said here by a **grammar**: three texts with one space between each, the last two
with a percent sign in them, each of them a number with units behind it
(`Restyle.Color.IsTriple`).

The program goes the other way. It takes percent signs and then units off the end of each text
and looks whether a number is left. The two agree (`Restyle.Color.isTriple_iff`) because no
number ends with a percent sign or with the last letter of the unit, so what is taken off is
what the grammar has behind the number.
-/

namespace Restyle.Color

variable {cs digits back : List Char} {value : String}

/-! ### The grammar -/

/-- Digits alone. -/
def AreDigits (cs : List Char) : Prop := ∀ c ∈ cs, c.isDigit

/-- A sign, or nothing. -/
def IsSign (cs : List Char) : Prop := cs = [] ∨ cs = ['+'] ∨ cs = ['-']

/-- The exponent of a number, or nothing. -/
inductive IsExponent : List Char → Prop
  | missing : IsExponent []
  | letter {e : Char} {sign digits : List Char} : e = 'e' ∨ e = 'E' → IsSign sign → digits ≠ [] →
      AreDigits digits → IsExponent (e :: (sign ++ digits))

/-- A number without a sign. -/
inductive IsUnsigned : List Char → Prop
  /-- A word for what is no finite number, in letters of either case. -/
  | word {text : List Char} :
      text.map Char.toLower ∈ ["inf".toList, "infinity".toList, "nan".toList] → IsUnsigned text
  /-- Digits, and an exponent. -/
  | whole {digits exponent : List Char} : digits ≠ [] → AreDigits digits →
      IsExponent exponent → IsUnsigned (digits ++ exponent)
  /-- Digits on at least one side of a point, and an exponent. -/
  | point {whole fraction exponent : List Char} : whole ++ fraction ≠ [] → AreDigits whole →
      AreDigits fraction → IsExponent exponent →
      IsUnsigned (whole ++ '.' :: (fraction ++ exponent))

/-- **A number**, perhaps with a sign. -/
def IsNumber (cs : List Char) : Prop :=
  ∃ sign text, cs = sign ++ text ∧ IsSign sign ∧ IsUnsigned text

/-- A unit, any number of times. -/
def degrees (n : Nat) : List Char := (List.replicate n "deg".toList).flatten

/-- **A component of a colour**: a number, perhaps with `deg` and percent signs behind it. -/
def IsComponent (cs : List Char) : Prop :=
  ∃ number n m, cs = number ++ (degrees n ++ List.replicate m '%') ∧ IsNumber number

/-- **The bare components of a colour**: a hue and two percentages with one space between each,
that do not start like a colour. -/
structure IsTriple (value : String) : Prop where
  bare : ∀ beginning ∈ ["hsl", "rgb", "#", "oklch"], ¬beginning.toList <+: value.toList
  components : ∃ hue saturation lightness : List Char,
    value.toList = hue ++ ' ' :: (saturation ++ ' ' :: lightness) ∧
      '%' ∈ saturation ∧ '%' ∈ lightness ∧
      IsComponent hue ∧ IsComponent saturation ∧ IsComponent lightness

/-! ### Numbers -/

theorem not_isSign_of_isDigit {c : Char} (h : c.isDigit) : c ≠ '+' ∧ c ≠ '-' := by
  constructor <;> rintro rfl <;> exact absurd h (by decide)

theorem isExponent_iff : isExponent cs ↔ IsExponent cs := by
  constructor
  · intro h
    unfold isExponent at h
    split at h
    · exact .missing
    · next c more =>
      cases more with
      | nil => simp at h
      | cons s after =>
        by_cases hsign : s = '+' ∨ s = '-'
        · have hif : (s == '+' || s == '-') = true := by simpa using hsign
          simp only [hif, if_true, Bool.and_eq_true, Bool.or_eq_true, beq_iff_eq,
            Bool.not_eq_true', List.isEmpty_eq_false_iff, List.all_eq_true] at h
          have hs : IsSign [s] := by simpa [IsSign] using hsign
          exact IsExponent.letter h.1.1 hs h.1.2 h.2
        · have hif : (s == '+' || s == '-') = false := by simpa using hsign
          simp only [hif, Bool.false_eq_true, if_false, Bool.and_eq_true, Bool.or_eq_true,
            beq_iff_eq, Bool.not_eq_true', List.isEmpty_eq_false_iff, List.all_eq_true] at h
          have hnone : IsSign [] := .inl rfl
          exact IsExponent.letter h.1.1 hnone h.1.2 h.2
  · rintro (_ | ⟨he, hsign, hne, hdigits⟩)
    · rfl
    · obtain ⟨c, digits, rfl⟩ := List.exists_cons_of_ne_nil hne
      have hc := not_isSign_of_isDigit (hdigits c List.mem_cons_self)
      rcases hsign with rfl | rfl | rfl <;>
        simpa [isExponent, hc, he] using fun d hd => hdigits d hd

/-- Digits end where the exponent begins. -/
theorem IsExponent.dropWhile_append (hback : IsExponent back) (hdigits : AreDigits digits) :
    (digits ++ back).dropWhile Char.isDigit = back := by
  rw [List.dropWhile_append_of_pos hdigits]
  cases hback with
  | missing => rfl
  | letter he => rcases he with rfl | rfl <;> rfl

theorem startsWithDigit_iff : startsWithDigit cs ↔ cs.takeWhile Char.isDigit ≠ [] := by
  unfold startsWithDigit
  cases cs with
  | nil => simp
  | cons c cs => cases hc : c.isDigit <;> simp [hc]

theorem startsWithDigit_append (hdigits : AreDigits digits) (hne : digits ≠ []) :
    startsWithDigit (digits ++ back) := by
  obtain ⟨c, digits, rfl⟩ := List.exists_cons_of_ne_nil hne
  simpa [startsWithDigit] using hdigits c List.mem_cons_self

theorem areDigits_takeWhile (cs : List Char) : AreDigits (cs.takeWhile Char.isDigit) :=
  fun _ hc => List.all_eq_true.mp List.all_takeWhile _ hc

theorem not_isExponent_point : ¬IsExponent ('.' :: cs) := by
  rintro (_ | ⟨he, -, -, -⟩)
  simp at he

theorem isUnsignedFloat_iff : isUnsignedFloat cs ↔ IsUnsigned cs := by
  unfold isUnsignedFloat
  constructor
  · intro h
    have hparts := List.takeWhile_append_dropWhile (p := Char.isDigit) (l := cs)
    split_ifs at h with hword
    · exact .word (by simpa [floatWords] using hword)
    split at h
    · next more hmore =>
      simp only [Bool.and_eq_true, Bool.or_eq_true, startsWithDigit_iff, isExponent_iff] at h
      rw [hmore, ← List.takeWhile_append_dropWhile (p := Char.isDigit) (l := more)] at hparts
      rw [← hparts]
      refine .point ?_ (areDigits_takeWhile cs) (areDigits_takeWhile more) h.2
      simpa only [ne_eq, List.append_eq_nil_iff, not_and_or] using h.1
    · simp only [Bool.and_eq_true, startsWithDigit_iff, isExponent_iff] at h
      rw [← hparts]
      exact .whole h.1 (areDigits_takeWhile cs) h.2
  · intro h
    split_ifs with hword
    · rfl
    cases h with
    | word h => exact absurd (by simpa [floatWords] using h) hword
    | whole hne hdigits hexponent =>
      rw [hexponent.dropWhile_append hdigits]
      split
      · exact absurd hexponent not_isExponent_point
      · rw [startsWithDigit_append hdigits hne, isExponent_iff.mpr hexponent, Bool.and_self]
    | @point whole fraction exponent hne hwhole hfraction hexponent =>
      rw [List.dropWhile_append_of_pos hwhole, List.dropWhile_cons_of_neg (by decide)]
      simp only [hexponent.dropWhile_append hfraction, isExponent_iff.mpr hexponent,
        Bool.and_true, Bool.or_eq_true]
      by_cases hnil : whole = []
      · have hfraction' : fraction ≠ [] := by simpa [hnil] using hne
        exact .inr (startsWithDigit_append hfraction hfraction')
      · exact .inl (startsWithDigit_append hwhole hnil)

/-- No number without a sign starts with one. -/
theorem not_isUnsigned_cons_of_isSign {sign : Char} (h : sign = '+' ∨ sign = '-') :
    ¬IsUnsigned (sign :: cs) := by
  rw [← isUnsignedFloat_iff]
  rcases h with rfl | rfl <;> simp [isUnsignedFloat, floatWords, startsWithDigit]

theorem isFloat_iff : isFloat cs ↔ IsNumber cs := by
  cases cs with
  | nil =>
    suffices ¬IsNumber [] by simpa [isFloat]
    rintro ⟨sign, text, happend, -, htext⟩
    obtain ⟨-, rfl⟩ := List.append_eq_nil_iff.mp happend.symm
    exact absurd (isUnsignedFloat_iff.mpr htext) (by decide)
  | cons c rest =>
    by_cases hsign : c = '+' ∨ c = '-'
    · have hfloat : isFloat (c :: rest) = isUnsignedFloat rest := by simp [isFloat, hsign]
      rw [hfloat, isUnsignedFloat_iff]
      refine ⟨fun h => ⟨[c], rest, rfl, by simpa [IsSign] using hsign, h⟩, ?_⟩
      rintro ⟨sign, text, happend, rfl | rfl | rfl, htext⟩
      · obtain rfl : c :: rest = text := happend
        exact absurd htext (not_isUnsigned_cons_of_isSign hsign)
      all_goals
        obtain ⟨-, rfl⟩ := List.cons_eq_cons.mp happend
        exact htext
    · have hfloat : isFloat (c :: rest) = isUnsignedFloat (c :: rest) := by simp [isFloat, hsign]
      rw [hfloat, isUnsignedFloat_iff]
      refine ⟨fun h => ⟨[], c :: rest, rfl, .inl rfl, h⟩, ?_⟩
      rintro ⟨sign, text, happend, rfl | rfl | rfl, htext⟩
      · exact happend ▸ htext
      all_goals exact absurd (List.cons_eq_cons.mp happend).1 (by tauto)

/-! ### Units -/

/-- What no number has in it: what units and components end with, and what is between
components. -/
def IsForeign (c : Char) : Prop := c = '%' ∨ c = 'g' ∨ c = ' '

theorem AreDigits.not_isForeign (h : AreDigits cs) : ∀ c ∈ cs, ¬IsForeign c := by
  rintro c hc (rfl | rfl | rfl) <;> exact absurd (h _ hc) (by decide)

theorem IsSign.not_isForeign (h : IsSign cs) : ∀ c ∈ cs, ¬IsForeign c := by
  rcases h with rfl | rfl | rfl <;> simp [IsForeign]

theorem IsExponent.not_isForeign (h : IsExponent cs) : ∀ c ∈ cs, ¬IsForeign c := by
  rcases h with _ | ⟨he, hsign, -, hdigits⟩
  · simp
  · simp only [List.forall_mem_cons, List.forall_mem_append]
    refine ⟨?_, hsign.not_isForeign, hdigits.not_isForeign⟩
    rcases he with rfl | rfl <;> simp [IsForeign]

theorem IsUnsigned.not_isForeign (h : IsUnsigned cs) : ∀ c ∈ cs, ¬IsForeign c := by
  cases h with
  | word h =>
    intro c hc hforeign
    have hlower : c.toLower ∈ cs.map Char.toLower := List.mem_map_of_mem hc
    simp only [List.mem_cons, List.not_mem_nil, or_false] at h
    rcases hforeign with rfl | rfl | rfl <;> rcases h with h | h | h <;>
      exact absurd (h ▸ hlower) (by decide)
  | whole _ hdigits hexponent =>
    exact List.forall_mem_append.mpr ⟨hdigits.not_isForeign, hexponent.not_isForeign⟩
  | point _ hwhole hfraction hexponent =>
    simp only [List.forall_mem_cons, List.forall_mem_append]
    exact ⟨hwhole.not_isForeign, by simp [IsForeign], hfraction.not_isForeign,
      hexponent.not_isForeign⟩

theorem IsNumber.not_isForeign (h : IsNumber cs) : ∀ c ∈ cs, ¬IsForeign c := by
  obtain ⟨sign, text, rfl, hsign, htext⟩ := h
  exact List.forall_mem_append.mpr ⟨hsign.not_isForeign, htext.not_isForeign⟩

theorem reverse_degrees_succ (n : Nat) (cs : List Char) :
    (degrees (n + 1)).reverse ++ cs = 'g' :: 'e' :: 'd' :: ((degrees n).reverse ++ cs) := by
  rw [degrees, List.replicate_succ', List.flatten_append, List.reverse_append]
  rfl

/-- Units are what is dropped. -/
theorem exists_dropDegrees (cs : List Char) :
    ∃ n, cs = (degrees n).reverse ++ dropDegrees cs := by
  fun_induction dropDegrees cs with
  | case1 rest ih =>
    obtain ⟨n, hn⟩ := ih
    exact ⟨n + 1, by rw [reverse_degrees_succ, ← hn]⟩
  | case2 cs => exact ⟨0, rfl⟩

/-- All units are dropped. -/
theorem dropDegrees_append (n : Nat) (h : 'g' ∉ cs) :
    dropDegrees ((degrees n).reverse ++ cs) = cs := by
  induction n with
  | zero =>
    show dropDegrees cs = cs
    unfold dropDegrees
    split
    · simp at h
    · rfl
  | succ n ih => rw [reverse_degrees_succ, dropDegrees, ih]

theorem mem_degrees {c : Char} {n : Nat} (h : c ∈ degrees n) : c ∈ ['d', 'e', 'g'] := by
  obtain ⟨unit, hunit, hc⟩ := List.mem_flatten.mp h
  rwa [List.eq_of_mem_replicate hunit] at hc

/-- **A component is one by what is left of it** without percent signs and units. -/
theorem isComponent_iff : isComponent cs ↔ IsComponent cs := by
  rw [isComponent, isFloat_iff]
  constructor
  · intro h
    obtain ⟨n, hn⟩ := exists_dropDegrees (cs.reverse.dropWhile (· == '%'))
    have hpercent : cs.reverse.takeWhile (· == '%') =
        List.replicate (cs.reverse.takeWhile (· == '%')).length '%' :=
      List.eq_replicate_of_mem fun c hc => by
        simpa using List.all_eq_true.mp List.all_takeWhile _ hc
    have hcs := List.takeWhile_append_dropWhile (p := (· == '%')) (l := cs.reverse)
    refine ⟨_, n, (cs.reverse.takeWhile (· == '%')).length, ?_, h⟩
    rw [hn, hpercent] at hcs
    simpa using (congrArg List.reverse hcs).symm
  · rintro ⟨number, n, m, rfl, hnumber⟩
    have hforeign := hnumber.not_isForeign
    have hpercent : '%' ∉ (degrees n).reverse ++ number.reverse := by
      simp only [List.mem_append, List.mem_reverse, not_or]
      exact ⟨fun h => absurd (mem_degrees h) (by decide),
        fun h => hforeign _ h (by simp [IsForeign])⟩
    have hg : 'g' ∉ number.reverse := fun h =>
      hforeign _ (List.mem_reverse.mp h) (by simp [IsForeign])
    have hreverse : (number ++ (degrees n ++ List.replicate m '%')).reverse =
        List.replicate m '%' ++ ((degrees n).reverse ++ number.reverse) := by simp
    rw [hreverse, List.dropWhile_append_of_pos (by simp), List.dropWhile_eq_self_iff.mpr,
      dropDegrees_append n hg, List.reverse_reverse]
    · exact hnumber
    · intro hlength hhead
      exact hpercent (beq_iff_eq.mp hhead ▸ List.getElem_mem hlength)

/-- No component has a space in it. -/
theorem IsComponent.not_mem (h : IsComponent cs) : ' ' ∉ cs := by
  obtain ⟨number, n, m, rfl, hnumber⟩ := h
  simp only [List.mem_append, not_or]
  exact ⟨fun h => hnumber.not_isForeign _ h (by simp [IsForeign]),
    fun h => absurd (mem_degrees h) (by decide),
    fun h => absurd (List.eq_of_mem_replicate h) (by decide)⟩

/-! ### Triples -/

theorem startsLikeColor_iff :
    startsLikeColor cs ↔ ∃ beginning ∈ ["hsl", "rgb", "#", "oklch"], beginning.toList <+: cs := by
  simp [startsLikeColor, colorBeginnings, Text.startsWith_iff]

/-- **What the program takes for a bare triple is one.** -/
theorem isTriple_iff : isTriple value ↔ IsTriple value := by
  rw [isTriple, Bool.and_eq_true, Bool.not_eq_true', ← Bool.not_eq_true, startsLikeColor_iff,
    Text.splitAt_eq_splitOnP]
  constructor
  · rintro ⟨hbare, h⟩
    refine ⟨fun beginning hmem hstart => hbare ⟨beginning, hmem, hstart⟩, ?_⟩
    split at h
    · next hue saturation lightness hparts =>
      simp only [Bool.and_eq_true, List.contains_iff_mem, isComponent_iff] at h
      obtain ⟨⟨⟨⟨hs, hl⟩, hhue⟩, hsaturation⟩, hlightness⟩ := h
      refine ⟨hue, saturation, lightness, ?_, hs, hl, hhue, hsaturation, hlightness⟩
      have hjoin : [' '].intercalate (value.toList.splitOn ' ') = value.toList :=
        List.intercalate_splitOn ' '
      rw [← hjoin, List.splitOn, hparts]
      simp [List.intercalate]
    · exact absurd h (by decide)
  · rintro ⟨hbare, hue, saturation, lightness, hvalue, hs, hl, hhue, hsaturation, hlightness⟩
    refine ⟨fun ⟨beginning, hmem, hstart⟩ => hbare beginning hmem hstart, ?_⟩
    have hparts : value.toList.splitOnP (· == ' ') = [hue, saturation, lightness] := by
      have hjoin : value.toList = [' '].intercalate [hue, saturation, lightness] := by
        simp [hvalue, List.intercalate]
      rw [hjoin]
      refine List.splitOn_intercalate ' ' ?_ (by simp)
      simp [hhue.not_mem, hsaturation.not_mem, hlightness.not_mem]
    rw [hparts]
    simp [hs, hl, isComponent_iff, hhue, hsaturation, hlightness]

instance (value : String) : Decidable (IsTriple value) := decidable_of_iff _ isTriple_iff

example : IsTriple "222.2 84% 4.9%" ∧ IsTriple "-1e3deg 5%% .5%" ∧ ¬IsTriple "0 0 100%" := by decide

/-- **A bare triple is wrapped.** -/
theorem wrapTriple_of_isTriple (h : IsTriple value) :
    wrapTriple value = "hsl(" ++ value ++ ")" :=
  if_pos (isTriple_iff.mpr h)

/-- **Any other value stays as it is.** -/
theorem wrapTriple_of_not_isTriple (h : ¬IsTriple value) : wrapTriple value = value :=
  if_neg (mt isTriple_iff.mp h)

end Restyle.Color
