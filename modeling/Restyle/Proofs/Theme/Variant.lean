import Restyle.Proofs.Theme.Additions

/-!
# The variant `dark` after installing

The utilities for dark colours depend on the variant `dark`, which a style sheet of version 4 has to
declare: by an at-rule `@custom-variant` whose parameters start with the word `dark`
(`Restyle.Theme.darkVariants`). There may be variants of other names, too.

Once the scaffold is removed there is nothing that could take such a declaration away or add one,
and the removal itself is after rules and a media query only. So it is all up to the step that
declares the variant, and this step asks whether the style sheet has *some* variant, not whether it
has the variant `dark`. A style sheet that declares `dark` keeps its declarations as they are, and
one without any variant gets one (`Restyle.Theme.darkVariants_install`). In between there are the
style sheets with other variants only, and they are left without
(`Restyle.Theme.not_forall_darkVariants_install`).
-/

namespace Restyle.Theme

open Restyle.Css (HasNo Keeps Node labels paramsOf)
open Restyle.Project (Settings Version)

variable {nodes front rest : List Node} {node : Node} {p : Node → Bool}

/-! ### Variants -/

/-- Whether a text starts with a word: the word is there, and what follows does not go on with
it. -/
def startsWithWord (word text : String) : Bool :=
  match Text.strip? word.toList text.toList with
  | some rest => !rest.head?.any fun c => Css.isNameChar c || c == '\\'
  | none => false

/-- **The declarations of the variant `dark`**, told by their parameters and in their order. -/
def darkVariants (nodes : List Node) : List String :=
  (paramsOf "custom-variant" nodes).filter (startsWithWord "dark")

theorem darkVariants_congr (h : labels front = labels rest) :
    darkVariants front = darkVariants rest := by
  rw [darkVariants, paramsOf, h, ← paramsOf, ← darkVariants]

theorem darkVariants_append (front rest : List Node) :
    darkVariants (front ++ rest) = darkVariants front ++ darkVariants rest := by
  rw [darkVariants, paramsOf, labels, List.map_append, Css.labelParams_append, List.filter_append]
  rfl

theorem darkVariants_cons (node : Node) (rest : List Node) :
    darkVariants (node :: rest) = darkVariants [node] ++ darkVariants rest :=
  darkVariants_append [node] rest

/-- Nodes that are inserted declare what they declare. -/
theorem darkVariants_insertAt (index : Nat) (new nodes : List Node) :
    darkVariants (Css.insertAt index new nodes) =
      darkVariants (nodes.take index) ++ darkVariants new ++ darkVariants (nodes.drop index) := by
  rcases eq_or_ne new [] with rfl | hnew
  · have hnone : darkVariants [] = [] := rfl
    rw [hnone, List.append_nil, ← darkVariants_append, List.take_append_drop]
    rfl
  · have hlabels : labels (Css.insertAt index new nodes) =
        labels (nodes.take index ++ new ++ nodes.drop index) := by
      rw [Css.labels_insertAt hnew]
      simp [labels]
    rw [darkVariants_congr hlabels, darkVariants_append, darkVariants_append]

theorem keeps_darkVariants_insertAt {new : List Node} (h : darkVariants new = []) (index : Nat) :
    Keeps darkVariants (Css.insertAt index new) := by
  intro nodes
  rw [darkVariants_insertAt, h, List.append_nil, ← darkVariants_append, List.take_append_drop]

/-- Where there is no variant, there is none that is `dark`. -/
theorem darkVariants_of_hasNo (h : HasNo "custom-variant" (labels nodes)) :
    darkVariants nodes = [] := by
  rw [darkVariants, paramsOf, h.labelParams, List.filter_nil]

/-! ### What keeps the variants -/

theorem overlooksAdditions_darkVariants : OverlooksAdditions darkVariants where
  behind := by
    intro nodes new added hlabels _ hvariant
    rw [darkVariants, paramsOf, hlabels, Css.labelParams_append, hvariant.labelParams,
      List.append_nil, ← paramsOf, ← darkVariants]
  plugin := by
    intro params nodes
    rw [Css.ensurePlugin_eq]
    split_ifs
    · rfl
    · split <;> exact keeps_darkVariants_insertAt rfl _ nodes

/-- A node may be revised or taken away if it declares no variant `dark`. -/
theorem keeps_darkVariants_reviseFirst (hp : ∀ node, p node → darkVariants [node] = [])
    (f : List Node → List Node) : Keeps darkVariants (reviseFirst p f) := by
  intro nodes
  induction nodes with
  | nil => rfl
  | cons node rest ih =>
    rw [reviseFirst, darkVariants_cons node rest]
    split_ifs with hnode hempty
    · rw [hp node hnode, List.nil_append]
    · have hlabel : labels [node.mapChildren f] = labels [node] :=
        congrArg ([·]) (node.alike_mapChildren f).label?
      rw [darkVariants_cons, darkVariants_congr hlabel]
    · rw [darkVariants_cons, ih]

theorem darkVariants_of_isRuleOf {selector : String} (h : isRuleOf selector node) :
    darkVariants [node] = [] := by
  refine darkVariants_of_hasNo fun params hmem => ?_
  cases node <;> simp_all [isRuleOf, Node.selector?, labels, Node.label?]

/-- A preference for dark colours is not the word `dark`. -/
theorem darkVariants_of_isDarkScheme (h : isDarkScheme node) : darkVariants [node] = [] := by
  have hword : startsWithWord "dark" "(prefers-color-scheme: dark)" = false := by decide
  rw [darkVariants, List.filter_eq_nil_iff]
  intro params hparams
  rw [paramsOf, Css.mem_labelParams, labels, List.map_singleton, List.mem_singleton] at hparams
  have hdark : params = "(prefers-color-scheme: dark)" := by
    cases node <;> simp_all [isDarkScheme, Node.atRule?, Node.label?]
  rw [hdark, hword]
  decide

theorem keeps_darkVariants_cleanUp (options : Options) : Keeps darkVariants (cleanUp options) := by
  have hremove : Keeps darkVariants removeScaffold :=
    (keeps_darkVariants_reviseFirst (fun _ => darkVariants_of_isDarkScheme) _).comp
      ((keeps_darkVariants_reviseFirst (fun _ => darkVariants_of_isRuleOf) _).comp
        (keeps_darkVariants_reviseFirst (fun _ => darkVariants_of_isRuleOf) _))
  intro nodes
  unfold cleanUp
  split_ifs
  · exact hremove nodes
  · rfl

/-! ### The step that declares it -/

/-- Where there is some variant nothing is declared, and else the variant `dark`. -/
theorem darkVariants_ensureDarkVariant (nodes : List Node) :
    darkVariants (ensureDarkVariant nodes) =
      if nodes.any (Node.isAtRuleNamed "custom-variant") then darkVariants nodes
      else [darkVariant] := by
  unfold ensureDarkVariant
  split_ifs with hany
  · rfl
  · have hnone : darkVariants nodes = [] :=
      darkVariants_of_hasNo (not_not.mp (Css.any_isAtRuleNamed_iff.not.mp hany))
    cases nodes with
    | nil => decide
    | cons first rest =>
      have hnew : darkVariants [Css.breakMarker, .statement "custom-variant" darkVariant {}] =
          [darkVariant] := by decide
      rw [darkVariants_cons, List.append_eq_nil_iff] at hnone
      dsimp only
      rw [darkVariants_insertAt, hnew, List.take_one, List.drop_one]
      simp [hnone.1, hnone.2]

/-- **The variant `dark` is declared in the end** exactly if it was before or if there was no
variant at all, and where it was declared before, no declaration is added. -/
theorem darkVariants_install {settings : Settings} (h : settings.version = .v4) (vars : Variables)
    (options : Options) (nodes : List Node) :
    (darkVariants (install vars settings options nodes) ≠ [] ↔
      darkVariants nodes ≠ [] ∨ HasNo "custom-variant" (labels nodes)) ∧
    (darkVariants nodes ≠ [] →
      darkVariants (install vars settings options nodes) = darkVariants nodes) := by
  rw [overlooksAdditions_darkVariants.install h, keeps_darkVariants_cleanUp,
    darkVariants_ensureDarkVariant]
  split_ifs with hany
  · have hsome : ¬HasNo "custom-variant" (labels nodes) := Css.any_isAtRuleNamed_iff.mp hany
    exact ⟨by simp [hsome], fun _ => rfl⟩
  · have hnone : HasNo "custom-variant" (labels nodes) :=
      not_not.mp (Css.any_isAtRuleNamed_iff.not.mp hany)
    exact ⟨by simp [hnone], fun hdark => absurd (darkVariants_of_hasNo hnone) hdark⟩

/-- A variant `dark` with a body, among other variants and behind a scaffold that is removed. -/
theorem darkVariants_install_body :
    let settings : Settings := { version := .v4 }
    let options : Options := { cleanup := true, legacy := some { plugins := ["forms"] } }
    let nodes : List Node :=
      [.block "media" "(prefers-color-scheme: dark)"
          [.rule ":root" [.declaration "--background" "#000" {}] {}] {},
        .statement "custom-variant" "darker (&:is(.darker *))" {},
        .block "custom-variant" "dark" [.rule "&:is(.dark *)" [.statement "slot" "" {}] {}] {}]
    settings.version = .v4 ∧
      darkVariants (install { light := [("gap", "4px")] } settings options nodes) = ["dark"] := by
  intro settings options nodes
  have hbefore : darkVariants nodes = ["dark"] := by decide
  have hversion : settings.version = .v4 := rfl
  refine ⟨hversion, ?_⟩
  rw [(darkVariants_install hversion _ options nodes).2 (by simp [hbefore]), hbefore]

/-- Another variant than `dark`, and `dark` is not declared. -/
theorem not_forall_darkVariants_install :
    ¬∀ (vars : Variables) (settings : Settings) (options : Options) (nodes : List Node),
      settings.version = .v4 → darkVariants (install vars settings options nodes) ≠ [] := by
  intro hall
  refine hall {} { cssVariables := false, version := .v4 } {}
    [.statement "custom-variant" "hocus (&:hover)" {}] rfl ?_
  decide

end Restyle.Theme
