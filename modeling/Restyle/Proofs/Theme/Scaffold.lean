import Restyle.Proofs.Css.Removal
import Restyle.Theme.Scaffold

/-!
# Nothing but the scaffold is removed

The removal of the scaffold takes five looks at a style sheet, each at what the ones before it have
left, and takes nodes away in between. What is gone in the end can still be told from the style
sheet as it was (`Restyle.Theme.IsGone`): certain declarations in the first containers of their
kinds, and such a container if all that was in it is gone. Everything else is left, in its order and
layout (`Restyle.Theme.removeScaffold_eq_without`).

That works because a node is looked for as one thing only: a rule of `body` is no rule of `:root`,
and neither is an at-rule. So no look has anything taken away that another one looks for.
-/

namespace Restyle.Theme

open Restyle.Css (Node eachAt replaceFirst without)

variable {p q : Node → Bool} {f : List Node → List Node} {nodes : List Node} {node : Node}
  {first second number : Nat} {numbers : List Nat}

/-! ### What is gone -/

/-- A node is the first one of a kind, and has a number. -/
def IsFirst (kind : Node → Bool) (nodes : List Node) (number : Nat) (node : Node) : Prop :=
  nodes.findIdx? kind = some number ∧ nodes[number]? = some node

/-- A rule of `:root` that has variables of the scaffold: the first one at top level, or in the
first at-rule for a preference for dark colours. -/
inductive IsScaffoldRoot (nodes : List Node) : List Nat → Node → Prop
  | top {number : Nat} {root : Node} : IsFirst (isRuleOf ":root") nodes number root →
      IsScaffoldRoot nodes [number] root
  | dark {number inner : Nat} {scheme root : Node} : IsFirst isDarkScheme nodes number scheme →
      IsFirst (isRuleOf ":root") scheme.children inner root →
      IsScaffoldRoot nodes [number, inner] root

/-- One of the four containers of the scaffold. -/
inductive IsScaffoldContainer (nodes : List Node) : List Nat → Node → Prop
  | body {number : Nat} {body : Node} : IsFirst (isRuleOf "body") nodes number body →
      IsScaffoldContainer nodes [number] body
  | scheme {number : Nat} {scheme : Node} : IsFirst isDarkScheme nodes number scheme →
      IsScaffoldContainer nodes [number] scheme
  | root {numbers : List Nat} {root : Node} : IsScaffoldRoot nodes numbers root →
      IsScaffoldContainer nodes numbers root

/-- **What is gone with the scaffold**, by the numbers that lead to it. -/
inductive IsGone (nodes : List Node) : List Nat → Prop
  /-- In the body, one declaration at most of each kind: a colour, a background and a font. -/
  | inBody {number inner : Nat} {body declaration : Node} {kind : Node → Bool} :
      IsFirst (isRuleOf "body") nodes number body →
      kind ∈ [isScaffoldColor, isScaffoldBackground, isScaffoldFont] →
      IsFirst kind body.children inner declaration → IsGone nodes [number, inner]
  /-- In a rule of `:root`, all declarations of the two variables. -/
  | inRoot {numbers : List Nat} {inner : Nat} {root declaration : Node} :
      IsScaffoldRoot nodes numbers root → root.children[inner]? = some declaration →
      isScaffoldVariable declaration → IsGone nodes (numbers ++ [inner])
  /-- A container with nothing left in it. -/
  | emptied {numbers : List Nat} {node : Node} : IsScaffoldContainer nodes numbers node →
      (∀ inner < node.children.length, IsGone nodes (numbers ++ [inner])) → IsGone nodes numbers

/-! ### Kinds of nodes -/

theorem isRuleOf_mapChildren (selector : String) (f : List Node → List Node) (node : Node) :
    isRuleOf selector (node.mapChildren f) = isRuleOf selector node := by
  cases node <;> rfl

theorem isDarkScheme_mapChildren (f : List Node → List Node) (node : Node) :
    isDarkScheme (node.mapChildren f) = isDarkScheme node := by
  cases node <;> rfl

theorem not_isRuleOf_of_ne {selector other : String} (h : isRuleOf selector node)
    (hne : selector ≠ other) : ¬isRuleOf other node := by
  unfold isRuleOf at h ⊢
  rw [beq_iff_eq] at h ⊢
  rw [h]
  simpa using hne

theorem not_isDarkScheme_of_isRuleOf {selector : String} (h : isRuleOf selector node) :
    ¬isDarkScheme node := by
  cases node <;> simp_all [isRuleOf, isDarkScheme, Node.selector?, Node.atRule?]

theorem IsFirst.eq {other : Node} (h : IsFirst p nodes number node)
    (hother : IsFirst q nodes number other) : node = other :=
  Option.some.inj (h.2.symm.trans hother.2)

theorem IsFirst.is (h : IsFirst p nodes number node) : p node := by
  obtain ⟨hfind, hnode⟩ := h
  obtain ⟨hlt, hp, -⟩ := List.findIdx?_eq_some_iff_getElem.mp hfind
  obtain ⟨-, rfl⟩ := List.getElem?_eq_some_iff.mp hnode
  exact hp

/-! ### What is gone at a depth -/

/-- At top level, only containers are gone. -/
theorem isGone_top : IsGone nodes [number] ↔ ∃ node, IsScaffoldContainer nodes [number] node ∧
    ∀ inner < node.children.length, IsGone nodes [number, inner] := by
  constructor
  · intro h
    generalize hnumbers : [number] = numbers at h
    cases h with
    | inBody => cases hnumbers
    | inRoot hroot => cases hroot <;> cases hnumbers
    | @emptied _ node hcontainer hall =>
      subst hnumbers
      exact ⟨node, hcontainer, hall⟩
  · rintro ⟨node, hcontainer, hall⟩
    exact .emptied hcontainer hall

/-- One level below, it depends on the container. -/
theorem isGone_inside : IsGone nodes [first, second] ↔
    (∃ body kind declaration, IsFirst (isRuleOf "body") nodes first body ∧
      kind ∈ [isScaffoldColor, isScaffoldBackground, isScaffoldFont] ∧
      IsFirst kind body.children second declaration) ∨
    (∃ root declaration, IsFirst (isRuleOf ":root") nodes first root ∧
      root.children[second]? = some declaration ∧ isScaffoldVariable declaration) ∨
    ∃ scheme root, IsFirst isDarkScheme nodes first scheme ∧
      IsFirst (isRuleOf ":root") scheme.children second root ∧
      ∀ inner < root.children.length, IsGone nodes [first, second, inner] := by
  constructor
  · intro h
    generalize hnumbers : [first, second] = numbers at h
    cases h with
    | inBody hbody hkind hfirst =>
      cases hnumbers
      exact .inl ⟨_, _, _, hbody, hkind, hfirst⟩
    | inRoot hroot hdeclaration hvariable =>
      cases hroot with
      | top hroot =>
        cases hnumbers
        exact .inr (.inl ⟨_, _, hroot, hdeclaration, hvariable⟩)
      | dark => cases hnumbers
    | emptied hcontainer hall =>
      subst hnumbers
      cases hcontainer with
      | root hroot =>
        cases hroot with
        | dark hscheme hroot => exact .inr (.inr ⟨_, _, hscheme, hroot, hall⟩)
  · rintro (⟨body, kind, declaration, hbody, hkind, hfirst⟩ |
      ⟨root, declaration, hroot, hdeclaration, hvariable⟩ | ⟨scheme, root, hscheme, hroot, hall⟩)
    · exact .inBody hbody hkind hfirst
    · exact .inRoot (.top hroot) hdeclaration hvariable
    · exact .emptied (.root (.dark hscheme hroot)) hall

/-- Further inside, only variables under a preference for dark colours are. -/
theorem isGone_deep : IsGone nodes (first :: second :: number :: numbers) ↔
    numbers = [] ∧ ∃ scheme root declaration, IsFirst isDarkScheme nodes first scheme ∧
      IsFirst (isRuleOf ":root") scheme.children second root ∧
      root.children[number]? = some declaration ∧ isScaffoldVariable declaration := by
  constructor
  · intro h
    generalize hnumbers : first :: second :: number :: numbers = all at h
    cases h with
    | inBody => cases hnumbers
    | inRoot hroot hdeclaration hvariable =>
      cases hroot with
      | top => cases hnumbers
      | dark hscheme hroot =>
        cases hnumbers
        exact ⟨rfl, _, _, _, hscheme, hroot, hdeclaration, hvariable⟩
    | emptied hcontainer =>
      subst hnumbers
      cases hcontainer with
      | root hroot => cases hroot
  · rintro ⟨rfl, scheme, root, declaration, hscheme, hroot, hdeclaration, hvariable⟩
    exact .inRoot (.dark hscheme hroot) hdeclaration hvariable

/-! ### The passes, by numbers -/

theorem removeFirst_eq_replaceFirst (p : Node → Bool) (nodes : List Node) :
    removeFirst p nodes = replaceFirst p (fun _ => []) nodes := by
  induction nodes with
  | nil => rfl
  | cons node rest ih => rw [removeFirst, replaceFirst, ih, List.nil_append]

theorem reviseFirst_eq_replaceFirst (p : Node → Bool) (f : List Node → List Node)
    (nodes : List Node) : reviseFirst p f nodes = replaceFirst p (Node.revise f) nodes := by
  induction nodes with
  | nil => rfl
  | cons node rest ih =>
    rw [reviseFirst, replaceFirst, ih, Node.revise]
    split_ifs <;> rfl

theorem eq_of_declares {property other : String} (h : node.declares property)
    (hother : node.declares other) : property = other := by
  cases node <;> simp_all [Node.declares, Node.declaration?]

theorem declares_of_isScaffoldColor (h : isScaffoldColor node) : node.declares "color" := by
  cases node <;> simp_all [isScaffoldColor, Node.declares, Node.declaration?]
  rcases h with h | h <;> exact h.1

theorem declares_of_isScaffoldBackground (h : isScaffoldBackground node) :
    node.declares "background" := by
  cases node <;> simp_all [isScaffoldBackground, Node.declares, Node.declaration?]

theorem declares_of_isScaffoldFont (h : isScaffoldFont node) : node.declares "font-family" := by
  cases node <;> simp_all [isScaffoldFont, Node.declares, Node.declaration?]

/-- One more element is removed, which none of those that are gone could have been. -/
theorem removeFirst_eachAt {isGone : Nat → Bool}
    (hkind : ∀ number node, nodes[number]? = some node → isGone number → ¬p node) :
    removeFirst p (eachAt (fun number node => if isGone number then [] else [node]) nodes) =
      eachAt (fun number node =>
        if isGone number || nodes.findIdx? p == some number then [] else [node]) nodes := by
  rw [removeFirst_eq_replaceFirst, Css.replaceFirst_eachAt]
  · refine Css.eachAt_congr fun number node _ => ?_
    by_cases hfound : nodes.findIdx? p = some number <;> simp [hfound]
  · intro number node hnode
    by_cases hgone : isGone number
    · exact .inr ⟨hkind number node hnode hgone, by simp [hgone]⟩
    · exact .inl (by simp [hgone])

/-- **In the body, the first declaration of each kind is removed.** -/
theorem cleanBody_eq_eachAt (nodes : List Node) :
    cleanBody nodes = eachAt (fun number node =>
      if ∃ kind ∈ [isScaffoldColor, isScaffoldBackground, isScaffoldFont],
        nodes.findIdx? kind = some number then [] else [node]) nodes := by
  have hself : nodes =
      eachAt (fun number node => if (fun _ : Nat => false) number then [] else [node]) nodes :=
    (Css.eachAt_singleton nodes).symm
  have hcolor {number : Nat} {node : Node} (hnode : nodes[number]? = some node)
      (h : nodes.findIdx? isScaffoldColor = some number) : node.declares "color" :=
    declares_of_isScaffoldColor (IsFirst.is ⟨h, hnode⟩)
  have hbackground {number : Nat} {node : Node} (hnode : nodes[number]? = some node)
      (h : nodes.findIdx? isScaffoldBackground = some number) : node.declares "background" :=
    declares_of_isScaffoldBackground (IsFirst.is ⟨h, hnode⟩)
  have hapart {property other : String} {node : Node} (h : node.declares property)
      (hother : node.declares other) (hne : property ≠ other) : False :=
    hne (eq_of_declares h hother)
  unfold cleanBody
  conv_lhs => rw [hself]
  rw [removeFirst_eachAt (by simp), removeFirst_eachAt, removeFirst_eachAt]
  · refine Css.eachAt_congr fun number node _ => ?_
    simp [or_assoc]
  · intro number node hnode hgone hfont
    simp only [Bool.false_or, Bool.or_eq_true, beq_iff_eq] at hgone
    rcases hgone with hgone | hgone
    · exact hapart (hcolor hnode hgone) (declares_of_isScaffoldFont hfont) (by decide)
    · exact hapart (hbackground hnode hgone) (declares_of_isScaffoldFont hfont) (by decide)
  · intro number node hnode hgone hback
    simp only [Bool.false_or, beq_iff_eq] at hgone
    exact hapart (hcolor hnode hgone) (declares_of_isScaffoldBackground hback) (by decide)

/-- Of a rule of `:root`, all declarations of the two variables are. -/
def removeDeclarations (nodes : List Node) : List Node :=
  nodes.filter (!isScaffoldVariable ·)

/-- **Under a preference for dark colours, only the first rule of `:root` is revised.** -/
theorem removeVariables_eq_eachAt (nodes : List Node) :
    removeVariables nodes = eachAt (fun number node =>
      if nodes.findIdx? (isRuleOf ":root") = some number then node.revise removeDeclarations
      else [node]) nodes := by
  have hself : nodes = eachAt (fun _ node => [node]) nodes := (Css.eachAt_singleton nodes).symm
  rw [removeVariables, reviseFirst_eq_replaceFirst]
  conv_lhs => rw [hself]
  exact Css.replaceFirst_eachAt fun _ _ _ => .inl rfl

/-- A revised node is of the kind that it was. -/
theorem not_of_mem_revise {other : Node} (hmap : p (node.mapChildren f) = p node) (h : ¬p node)
    (hother : other ∈ node.revise f) : ¬p other := by
  unfold Node.revise at hother
  split_ifs at hother
  · cases hother
  · rwa [List.mem_singleton.mp hother, hmap]

/-- **At top level, the first container of each kind is revised.** -/
theorem removeScaffold_eq_eachAt (nodes : List Node) :
    removeScaffold nodes = eachAt (fun number node =>
      if nodes.findIdx? isDarkScheme = some number then node.revise removeVariables
      else if nodes.findIdx? (isRuleOf ":root") = some number then node.revise removeDeclarations
      else if nodes.findIdx? (isRuleOf "body") = some number then node.revise cleanBody
      else [node]) nodes := by
  have hself : nodes = eachAt (fun _ node => [node]) nodes := (Css.eachAt_singleton nodes).symm
  unfold removeScaffold removeVariables
  simp only [reviseFirst_eq_replaceFirst]
  conv_lhs => rw [hself]
  rw [Css.replaceFirst_eachAt fun _ _ _ => .inl rfl, Css.replaceFirst_eachAt,
    Css.replaceFirst_eachAt]
  · rfl
  · intro number node hnode
    split_ifs with hroot hbody
    · have hnot := not_isDarkScheme_of_isRuleOf (IsFirst.is ⟨hroot, hnode⟩)
      exact .inr ⟨hnot, fun other => not_of_mem_revise (isDarkScheme_mapChildren _ node) hnot⟩
    · have hnot := not_isDarkScheme_of_isRuleOf (IsFirst.is ⟨hbody, hnode⟩)
      exact .inr ⟨hnot, fun other => not_of_mem_revise (isDarkScheme_mapChildren _ node) hnot⟩
    · exact .inl rfl
  · intro number node hnode
    split_ifs with hbody
    · have hnot : ¬isRuleOf ":root" node :=
        not_isRuleOf_of_ne (IsFirst.is ⟨hbody, hnode⟩) (by decide)
      exact .inr ⟨hnot, fun other => not_of_mem_revise (isRuleOf_mapChildren _ _ node) hnot⟩
    · exact .inl rfl

/-! ### Each container -/

/-- The first rule of the body is nothing else. -/
theorem IsFirst.body_ne {body : Node} (h : IsFirst (isRuleOf "body") nodes number body) :
    (∀ root, ¬IsFirst (isRuleOf ":root") nodes number root) ∧
      ∀ scheme, ¬IsFirst isDarkScheme nodes number scheme :=
  ⟨fun _ hroot => not_isRuleOf_of_ne h.is (by decide) (h.eq hroot ▸ hroot.is),
    fun _ hscheme => not_isDarkScheme_of_isRuleOf h.is (h.eq hscheme ▸ hscheme.is)⟩

/-- And a rule of `:root` at top level is not inside of an at-rule. -/
theorem IsFirst.root_ne {root : Node} (h : IsFirst (isRuleOf ":root") nodes number root)
    (scheme : Node) : ¬IsFirst isDarkScheme nodes number scheme :=
  fun hscheme => not_isDarkScheme_of_isRuleOf h.is (h.eq hscheme ▸ hscheme.is)

section Containers

variable {gone : List Nat → Bool} (hgone : ∀ numbers, gone numbers ↔ IsGone nodes numbers)
include hgone

theorem cleanBody_eq_without {body : Node} (h : IsFirst (isRuleOf "body") nodes number body) :
    cleanBody body.children = without (fun numbers => gone (number :: numbers)) body.children := by
  obtain ⟨hroot, hscheme⟩ := h.body_ne
  rw [cleanBody_eq_eachAt, Css.without_eq_eachAt]
  refine Css.eachAt_congr fun inner child hchild => ?_
  have hinside : gone [number, inner] ↔
      ∃ kind ∈ [isScaffoldColor, isScaffoldBackground, isScaffoldFont],
        body.children.findIdx? kind = some inner := by
    rw [hgone, isGone_inside]
    constructor
    · rintro (⟨other, kind, _, hother, hkind, hfirst⟩ | ⟨_, _, hother, -⟩ | ⟨_, _, hother, -⟩)
      · exact ⟨kind, hkind, (h.eq hother).symm ▸ hfirst.1⟩
      · exact absurd hother (hroot _)
      · exact absurd hother (hscheme _)
    · rintro ⟨kind, hkind, hfirst⟩
      exact .inl ⟨body, kind, child, h, hkind, hfirst, hchild⟩
  have hdeep (third : Nat) (rest : List Nat) : ¬gone (number :: inner :: third :: rest) := by
    rw [hgone, isGone_deep]
    rintro ⟨-, _, _, _, hother, -⟩
    exact hscheme _ hother
  rw [Css.Node.without_eq_self hdeep]
  exact if_congr hinside.symm rfl rfl

/-- A rule of `:root` whose variables are gone. -/
theorem removeDeclarations_eq_without {root : Node} (h : IsScaffoldRoot nodes numbers root) :
    removeDeclarations root.children =
      without (fun inner => gone (numbers ++ inner)) root.children := by
  rw [removeDeclarations, Css.filter_eq_eachAt, Css.without_eq_eachAt]
  refine Css.eachAt_congr fun inner child hchild => ?_
  have hinside : gone (numbers ++ [inner]) ↔ isScaffoldVariable child := by
    rw [hgone]
    constructor
    · intro hinner
      cases h with
      | top hroot =>
        rcases isGone_inside.mp hinner with ⟨_, _, _, hother, -⟩ |
          ⟨other, declaration, hother, hdeclaration, hvariable⟩ | ⟨_, _, hother, -⟩
        · exact absurd hroot (hother.body_ne.1 root)
        · obtain rfl := hroot.eq hother
          exact Option.some.inj (hchild.symm.trans hdeclaration) ▸ hvariable
        · exact absurd hother (hroot.root_ne _)
      | dark hscheme hroot =>
        obtain ⟨-, _, _, declaration, hother, hroot', hdeclaration, hvariable⟩ :=
          isGone_deep.mp hinner
        obtain rfl := hscheme.eq hother
        obtain rfl := hroot.eq hroot'
        exact Option.some.inj (hchild.symm.trans hdeclaration) ▸ hvariable
    · exact .inRoot h hchild
  have hdeep (third : Nat) (rest : List Nat) : ¬gone (numbers ++ inner :: third :: rest) := by
    rw [hgone]
    intro hinner
    cases h with
    | top hroot =>
      obtain ⟨-, _, _, _, hother, -⟩ := isGone_deep.mp hinner
      exact hroot.root_ne _ hother
    | dark => cases (isGone_deep.mp hinner).1
  rw [Css.Node.without_eq_self hdeep, if_congr hinside rfl rfl]
  by_cases hvariable : isScaffoldVariable child <;> simp [hvariable]

theorem removeVariables_eq_without {scheme : Node} (h : IsFirst isDarkScheme nodes number scheme) :
    removeVariables scheme.children =
      without (fun numbers => gone (number :: numbers)) scheme.children := by
  rw [removeVariables_eq_eachAt, Css.without_eq_eachAt]
  refine Css.eachAt_congr fun inner child hchild => ?_
  have hinside : gone [number, inner] ↔ IsFirst (isRuleOf ":root") scheme.children inner child ∧
      ∀ third < child.children.length, gone [number, inner, third] := by
    simp only [hgone]
    rw [isGone_inside]
    constructor
    · rintro (⟨_, _, _, hother, -⟩ | ⟨_, _, hother, -⟩ | ⟨other, root, hother, hroot, hall⟩)
      · exact absurd h (hother.body_ne.2 _)
      · exact absurd h (hother.root_ne _)
      · -- the container is the one that was meant, and so is the rule in it
        obtain rfl := h.eq hother
        obtain rfl : child = root := Option.some.inj (hchild.symm.trans hroot.2)
        exact ⟨hroot, hall⟩
    · rintro ⟨hroot, hall⟩
      exact .inr (.inr ⟨scheme, child, h, hroot, hall⟩)
  split_ifs with hfirst hgone' hgone'
  · have hroot : IsFirst (isRuleOf ":root") scheme.children inner child := ⟨hfirst, hchild⟩
    rw [Node.revise_eq child (removeDeclarations_eq_without hgone (.dark h hroot))]
    exact if_pos (hinside.mp hgone').2
  · have hroot : IsFirst (isRuleOf ":root") scheme.children inner child := ⟨hfirst, hchild⟩
    rw [Node.revise_eq child (removeDeclarations_eq_without hgone (.dark h hroot))]
    exact if_neg fun hall => hgone' (hinside.mpr ⟨hroot, hall⟩)
  · exact absurd (hinside.mp hgone').1.1 hfirst
  · have hdeep (third : Nat) (rest : List Nat) : ¬gone (number :: inner :: third :: rest) := by
      rw [hgone, isGone_deep]
      rintro ⟨-, other, _, _, hother, hroot, -⟩
      obtain rfl := h.eq hother
      exact hfirst hroot.1
    rw [Css.Node.without_eq_self hdeep]

omit hgone in
theorem IsScaffoldContainer.getElem? (h : IsScaffoldContainer nodes [number] node) :
    nodes[number]? = some node := by
  cases h with
  | body hfirst => exact hfirst.2
  | scheme hfirst => exact hfirst.2
  | root hroot => cases hroot with
    | top hfirst => exact hfirst.2

/-- A container at top level goes if all that is in it does. -/
theorem revise_eq_without (h : IsScaffoldContainer nodes [number] node)
    (hf : f node.children = without (fun numbers => gone (number :: numbers)) node.children) :
    node.revise f =
      if gone [number] then [] else [node.without fun numbers => gone (number :: numbers)] := by
  have htop : gone [number] ↔ ∀ inner < node.children.length, gone [number, inner] := by
    simp only [hgone]
    rw [isGone_top]
    constructor
    · rintro ⟨other, hother, hall⟩
      obtain rfl : other = node := Option.some.inj (hother.getElem?.symm.trans h.getElem?)
      exact hall
    · exact fun hall => ⟨node, h, hall⟩
  rw [Node.revise_eq node hf, if_congr htop.symm rfl rfl]

/-- All else at top level stays as it is. -/
theorem untouched_eq_without (hscheme : nodes.findIdx? isDarkScheme ≠ some number)
    (hroot : nodes.findIdx? (isRuleOf ":root") ≠ some number)
    (hbody : nodes.findIdx? (isRuleOf "body") ≠ some number) :
    [node] = if gone [number] then []
      else [node.without fun numbers => gone (number :: numbers)] := by
  have htop : ¬gone [number] := by
    rw [hgone, isGone_top]
    rintro ⟨other, hother, -⟩
    cases hother with
    | body hfirst => exact hbody hfirst.1
    | scheme hfirst => exact hscheme hfirst.1
    | root hfirst => cases hfirst with
      | top hfirst => exact hroot hfirst.1
  have hdeep (inner : Nat) (rest : List Nat) : ¬gone (number :: inner :: rest) := by
    rw [hgone]
    cases rest with
    | nil =>
      rw [isGone_inside]
      rintro (⟨_, _, _, hother, -⟩ | ⟨_, _, hother, -⟩ | ⟨_, _, hother, -⟩)
      · exact hbody hother.1
      · exact hroot hother.1
      · exact hscheme hother.1
    | cons third rest =>
      rw [isGone_deep]
      rintro ⟨-, _, _, _, hother, -⟩
      exact hscheme hother.1
  rw [if_neg htop, Css.Node.without_eq_self hdeep]

end Containers

/-- **What is removed from a style sheet is what is gone with the scaffold**, and everything else
is left as it was. -/
theorem removeScaffold_eq_without (nodes : List Node) :
    ∃ gone : List Nat → Bool, (∀ numbers, gone numbers ↔ IsGone nodes numbers) ∧
      removeScaffold nodes = without gone nodes := by
  classical
  obtain ⟨gone, hgone⟩ : ∃ gone : List Nat → Bool, ∀ numbers, gone numbers ↔ IsGone nodes numbers :=
    ⟨fun numbers => decide (IsGone nodes numbers), fun _ => decide_eq_true_iff⟩
  refine ⟨gone, hgone, ?_⟩
  rw [removeScaffold_eq_eachAt, Css.without_eq_eachAt]
  refine Css.eachAt_congr fun number node hnode => ?_
  by_cases hscheme : nodes.findIdx? isDarkScheme = some number
  · have hfirst : IsFirst isDarkScheme nodes number node := ⟨hscheme, hnode⟩
    rw [if_pos hscheme]
    exact revise_eq_without hgone (.scheme hfirst) (removeVariables_eq_without hgone hfirst)
  by_cases hroot : nodes.findIdx? (isRuleOf ":root") = some number
  · have hfirst : IsScaffoldRoot nodes [number] node := .top ⟨hroot, hnode⟩
    rw [if_neg hscheme, if_pos hroot]
    exact revise_eq_without hgone (.root hfirst) (removeDeclarations_eq_without hgone hfirst)
  by_cases hbody : nodes.findIdx? (isRuleOf "body") = some number
  · have hfirst : IsFirst (isRuleOf "body") nodes number node := ⟨hbody, hnode⟩
    rw [if_neg hscheme, if_neg hroot, if_pos hbody]
    exact revise_eq_without hgone (.body hfirst) (cleanBody_eq_without hgone hfirst)
  rw [if_neg hscheme, if_neg hroot, if_neg hbody]
  exact untouched_eq_without hgone hscheme hroot hbody

end Restyle.Theme
