import Restyle.Proofs.Css.Blindness
import Restyle.Proofs.Merge.Replay
import Restyle.Proofs.Order.Entries

/-!
# Bodies that are written as a text

The body of a rule, a utility or a property can be written as a text of declarations, or as an
object of properties. A text may declare a property twice, and then each declaration is merged in
its turn; in an object a property has its first place and its last value. Merging makes no
difference between the two (`Restyle.Merge.mergeRules_text`), whatever is there already, and
however often it is declared there.

The reason is what a declaration does to the block that it goes to. It replaces a value where the
property is declared, and where it was declared a moment ago it is declared still: declarations go
by the rules by which entries are written (`Restyle.Merge.replaces_declare`). The rest is to see
that the edits of either plan are declarations in one and the same block
(`Restyle.Merge.makeAll_declares`).
-/

namespace Restyle.Merge

open Restyle.Css (KeepsSome Node Sheet containerAt? isDeclared revise)
open Restyle.Entries (ofWrites writeAll)
open Restyle.Json (Value)

variable {path : Path} {declarations : List (String × String)} {nodes : List Node}

/-! ### Declarations in a block -/

/-- **Declarations replace as entries do.** -/
theorem replaces_declare : Entries.Replaces Css.declare where
  same _ _ _ nodes := Css.declare_declare nodes
  other {property other} value old new nodes hne := by
    have hdeclared : isDeclared property (Css.declare property old nodes) := by
      rw [← Css.isSome_valueOf?, Css.valueOf?_declare]
      rfl
    rw [Css.declare_comm_of_isDeclared hne hdeclared, Css.declare_declare]

theorem keepsSome_writeAll (declarations : List (String × String)) :
    KeepsSome (writeAll Css.declare declarations) := by
  induction declarations with
  | nil => exact fun _ hne => hne
  | cons declaration rest ih =>
    exact fun nodes hne => ih _ (Css.keepsSome_declare declaration.1 declaration.2 nodes hne)

/-- **Declarations at a path that leads to a block** are made in that block. -/
theorem makeAll_declares (h : (containerAt? path.places nodes).isSome) :
    makeAll (declarations.map fun declaration => .declare path declaration.1 declaration.2) nodes =
      revise (writeAll Css.declare declarations) path.places nodes := by
  induction declarations generalizing nodes with
  | nil =>
    obtain ⟨inner, hinner⟩ := Option.isSome_iff_exists.mp h
    exact (Css.revise_eq_self hinner rfl).symm
  | cons declaration rest ih =>
    have hmade : (Edit.declare path declaration.1 declaration.2).make nodes =
        revise (Css.declare declaration.1 declaration.2) path.places nodes :=
      alongPath_eq_revise h
    rw [List.map_cons, makeAll_cons, hmade, ih, Css.revise_comp (keepsSome_writeAll rest)]
    · rfl
    · rwa [Css.containerAt?_revise, Option.isSome_map]

/-! ### Plans that come to the same -/

/-- **Two plans agree** if they make the same of every style sheet. -/
structure Plan.Agree (first second : Plan) : Prop where
  failure : first.failure = second.failure
  makeAll : ∀ nodes, makeAll first.edits nodes = makeAll second.edits nodes

namespace Plan.Agree

variable {first first' second second' : Plan}

theorem refl (plan : Plan) : plan.Agree plan := ⟨rfl, fun _ => rfl⟩

theorem andThen (h : first.Agree first') (h' : second.Agree second') :
    (first.andThen second).Agree (first'.andThen second') := by
  rw [Plan.andThen, Plan.andThen, ← h.failure]
  cases first.failure with
  | some failure => exact h
  | none =>
    refine ⟨h'.failure, fun nodes => ?_⟩
    simp only [Merge.makeAll, List.foldl_append]
    exact (h'.makeAll _).trans (congrArg _ (h.makeAll nodes))

end Plan.Agree

/-- The plan to declare some properties at a path, which is made where it is missing. -/
def declaring (path : Path) (declarations : List (String × String)) : Plan :=
  { edits := .reach path ::
      declarations.map fun declaration => .declare path declaration.1 declaration.2 }

/-- **Each property once is enough.** -/
theorem agree_declaring (path : Path) (declarations : List (String × String)) :
    (declaring path declarations).Agree (declaring path (ofWrites declarations)) := by
  refine ⟨rfl, fun nodes => ?_⟩
  have hreached := containerAt?_reachPath path nodes
  have heach : writeAll Css.declare (ofWrites declarations) = writeAll Css.declare declarations :=
    funext (replaces_declare.writeAll_ofWrites declarations)
  simp only [declaring, makeAll_cons, Edit.make]
  rw [makeAll_declares hreached, makeAll_declares hreached, heach]

/-- In a description, a body may be exchanged for one whose plan agrees. -/
theorem agree_planRules {key : String} {body body' : Value}
    (h : (planKey key body).Agree (planKey key body')) (before behind : Entries Value) :
    (planRules (before ++ (key, body) :: behind)).Agree
      (planRules (before ++ (key, body') :: behind)) := by
  induction before with
  | nil => exact h.andThen (.refl _)
  | cons rule before ih => exact Plan.Agree.andThen (.refl _) ih

/-! ### The plans of the two ways to write a body -/

/-- The object whose members are some declarations. -/
def objectOf (declarations : Entries String) : Value :=
  .object (declarations.map fun (property, value) => (property, .string value))

/-- **A key of a rule, of a utility or of a property.** -/
def IsBlockKey (key : String) : Prop :=
  behindAt? key = none ∨ ∃ rest params, behindAt? key = some rest ∧
    (splitAtRule? rest = some ("utility", params) ∨ splitAtRule? rest = some ("property", params))

theorem planStrings_objectOf (path : Path) (selector : String) (declarations : Entries String) :
    planStrings path selector
        (declarations.map fun (property, value) => (property, .string value)) =
      { edits := declarations.map fun declaration =>
          .declare path declaration.1 declaration.2 } := by
  induction declarations with
  | nil => rfl
  | cons declaration rest ih =>
    rw [List.map_cons, planStrings, ih]
    rfl

/-- Strings are no rules and no at-rules. -/
theorem planNested_objectOf (path : Path) (selector : String) (withBreak : Bool)
    (declarations : Entries String) :
    planNested path selector withBreak
        (declarations.map fun (property, value) => (property, .string value)) = {} := by
  induction declarations with
  | nil => rfl
  | cons declaration rest ih =>
    rw [List.map_cons, planNested.eq_def]
    exact congrArg (Plan.andThen {}) ih

theorem planBlockMembers_objectOf (path : Path) (label : String) (declarations : Entries String) :
    planBlockMembers path label
        (declarations.map fun (property, value) => (property, .string value)) =
      { edits := declarations.map fun declaration =>
          .declare path declaration.1 declaration.2 } := by
  induction declarations with
  | nil => rfl
  | cons declaration rest ih =>
    rw [List.map_cons, planBlockMembers, ih]
    rfl

/-- A key asks for a rule, or for a utility or a property. -/
theorem IsBlockKey.planKey_eq {key : String} (h : IsBlockKey key) :
    (∀ body, planKey key body = planRule [] key true body) ∨
      ∃ name params, ∀ body, planKey key body = planBlock name params key body := by
  rcases h with hplain | ⟨rest, params, hkey, hname | hname⟩
  · exact .inl fun body => by simp only [planKey, Key.classify?, hplain]
  · exact .inr ⟨"utility", params, fun body => by simp [planKey, Key.classify?, hkey, hname]⟩
  · exact .inr ⟨"property", params, fun body => by simp [planKey, Key.classify?, hkey, hname]⟩

/-- Whichever way the body is written, the plan is to declare properties at one path. -/
theorem IsBlockKey.exists_path {key : String} (h : IsBlockKey key) :
    ∃ path, (∀ {text declarations}, Css.declarationsOfString text = .ok declarations →
        planKey key (.string text) = declaring path declarations) ∧
      ∀ declarations, planKey key (objectOf declarations) = declaring path declarations := by
  rcases h.planKey_eq with hplan | ⟨name, params, hplan⟩
  · refine ⟨[⟨.rule key, true⟩], fun {text declarations} htext => ?_, fun declarations => ?_⟩
    · simp only [hplan, planRule, planText, htext]
      rfl
    · simp only [hplan, objectOf, planRule, planStrings_objectOf, planNested_objectOf]
      simp [Plan.andThen, Plan.edit, declaring, below]
  · refine ⟨[⟨.atRule name params, true⟩], fun {text declarations} htext => ?_,
      fun declarations => ?_⟩
    · simp only [hplan, planBlock, planText, htext]
      rfl
    · simp only [hplan, planBlock, objectOf, planBlockMembers_objectOf]
      rfl

/-- **A body that is written as a text is merged as the object of its declarations**, in which a
property that is declared again keeps its first place and takes its last value. -/
theorem mergeRules_text {key text : String} (hkey : IsBlockKey key)
    (htext : Css.declarationsOfString text = .ok declarations) (before behind : Entries Value)
    (sheet : Sheet) :
    mergeRules (before ++ (key, .string text) :: behind) sheet =
      mergeRules (before ++ (key, objectOf (ofWrites declarations)) :: behind) sheet := by
  obtain ⟨path, hstring, hobject⟩ := hkey.exists_path
  have hagree : (planKey key (.string text)).Agree
      (planKey key (objectOf (ofWrites declarations))) := by
    rw [hstring htext, hobject]
    exact agree_declaring path declarations
  have hplans := agree_planRules hagree before behind
  simp only [mergeRules, hplans.failure, hplans.makeAll]

/-- A property that is declared twice, in a utility that declares it twice. -/
theorem mergeRules_text_utility :
    let text := "a: 1; /* x */ b: 2;; a: 3"
    let sheet : Sheet := ⟨[.block "utility" "card"
      [.declaration "a" "0" {}, .declaration "a" "9" {}] {}], "", true⟩
    IsBlockKey "@utility card" ∧
      Css.declarationsOfString text = .ok [("a", "1"), ("b", "2"), ("a", "3")] ∧
      mergeRules [("@utility card", .string text)] sheet =
        mergeRules [("@utility card", objectOf [("a", "3"), ("b", "2")])] sheet := by
  have hkey : IsBlockKey "@utility card" :=
    .inr ⟨"utility card".toList, "card", by decide, .inl (by decide)⟩
  have htext : Css.declarationsOfString "a: 1; /* x */ b: 2;; a: 3" =
      .ok [("a", "1"), ("b", "2"), ("a", "3")] := by
    decide +kernel
  exact ⟨hkey, htext, mergeRules_text hkey htext [] [] _⟩

end Restyle.Merge
