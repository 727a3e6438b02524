import Restyle.Project.Installation
import Restyle.Proofs.Files.Store

/-!
# What a failed installation leaves behind

A step of an installation reads a text, makes another of it and writes that, in this order, so
a step that fails has written nothing (`Restyle.Project.revised_eq_self`). An item is installed
in two such steps, and the failure of the second one does not take back the first
(`Restyle.Project.runOn_installItem_of_error`). Hence a failed installation leaves the style
sheet as it was exactly where the first step failed as well, or had nothing to change
(`Restyle.Project.content?_installItem_eq_iff`). No other file is changed in any case.
-/

namespace Restyle.Project

open Restyle.Files (Access Store)

variable {store after : Store} {path : String} {failure : Failure} {item : Item}
  {settings : Settings} {options : Theme.Options}

/-! ### Operations on a store -/

section RunOn

variable {α β : Type}

/-- An operation on the files of a store: its outcome, and the store behind it. -/
def runOn (store : Store) (operation : ExceptT Failure (StateM Store) α) :
    Except Failure α × Store :=
  operation.run.run store

@[simp] theorem runOn_pure (found : α) : runOn store (pure found) = (.ok found, store) := rfl

/-- What follows an operation runs on the store behind it, unless it failed. -/
theorem runOn_bind (operation : ExceptT Failure (StateM Store) α)
    (next : α → ExceptT Failure (StateM Store) β) :
    runOn store (operation >>= next) =
      match runOn store operation with
      | (.ok found, behind) => runOn behind (next found)
      | (.error failure, behind) => (.error failure, behind) := by
  simp only [runOn, ExceptT.run_bind, StateT.run_bind]
  rcases operation.run.run store with ⟨_ | _, _⟩ <;> rfl

/-- Operations on a store that only read it. -/
@[simp] theorem runOn_readText : runOn store (Files.readText path) =
    ((store.read path).mapError (.read path), store) := by
  have hread : runOn store (liftM (Access.read path : StateM Store _)) =
      (.ok (store.read path), store) := rfl
  rw [Files.readText, runOn_bind, hread]
  cases store.read path <;> rfl

@[simp] theorem runOn_existing? (css : Option String) : runOn store (Files.existing? css) =
    (.ok (css.filter fun path => (store.content? path).isSome), store) := by
  cases css with
  | none => rfl
  | some path =>
    have hthere : runOn store (liftM (Access.isThere path : StateM Store _)) =
        (.ok (store.content? path).isSome, store) := rfl
    simp only [Files.existing?, runOn_bind, hthere]
    cases h : (store.content? path).isSome <;> simp [Option.filter, h]

theorem runOn_writeIfChanged (before text : String) :
    runOn store (Files.writeIfChanged path before text) =
      (.ok (before ≠ text), if before = text then store else store.write path text) := by
  unfold Files.writeIfChanged
  split_ifs with h
  · simp [h]
  · have hwrite : runOn store (liftM (Access.write path text : StateM Store Unit)) =
        (.ok (), store.write path text) := rfl
    rw [runOn_bind, hwrite]
    simp [h]

end RunOn

/-! ### A store with one text revised -/

/-- A store with another text at a path, if there is a text that can be changed. -/
def revised (path : String) (change : String → Except Failure String) (store : Store) : Store :=
  match store.read path with
  | .error _ => store
  | .ok before =>
    match change before with
    | .error _ => store
    | .ok text => if before = text then store else store.write path text

/-- Why a text cannot be revised, or whether it becomes another one. -/
def revision (path : String) (change : String → Except Failure String) (store : Store) :
    Except Failure Bool :=
  match store.read path with
  | .error problem => .error (.read path problem)
  | .ok before => (change before).map fun text => decide (before ≠ text)

theorem runOn_revise (change : String → Except Failure String) :
    runOn store (Files.revise path change) =
      (revision path change store, revised path change store) := by
  rw [Files.revise, runOn_bind, runOn_readText, revision, revised]
  cases store.read path with
  | error problem => rfl
  | ok before =>
    dsimp only [Except.mapError]
    rw [runOn_bind]
    cases change before with
    | error failure => rfl
    | ok text => exact runOn_writeIfChanged before text

/-- The same for a file that may be missing. -/
theorem runOn_revise_existing (change : String → Except Failure String) :
    runOn store (do
      match ← Files.existing? (some path) with
      | none => pure false
      | some path => Files.revise path change) =
      (if (store.content? path).isSome then revision path change store else .ok false,
        revised path change store) := by
  rw [runOn_bind, runOn_existing?]
  cases hthere : store.content? path with
  | none =>
    have hread : store.read path = .error .missing := by rw [Store.read, hthere]
    simp [Option.filter, hthere, revised, hread]
  | some content =>
    simp only [Option.filter, hthere, Option.isSome_some, if_true]
    exact runOn_revise change

/-- **A revision that fails has written nothing.** -/
theorem revised_eq_self {change : String → Except Failure String}
    (h : revision path change store = .error failure) : revised path change store = store := by
  unfold revision at h
  unfold revised
  cases hread : store.read path with
  | error problem => rfl
  | ok before =>
    simp only [hread] at h ⊢
    cases hchange : change before with
    | error failure => rfl
    | ok text => simp [hchange, Except.map] at h

section Revised

variable (hstore : store.IsConsistent) (change : String → Except Failure String)
include hstore

/-- **A revision leaves a text as it was** exactly where it fails or changes nothing. -/
theorem content?_revised_eq_iff :
    (revised path change store).content? path = store.content? path ↔
      ∀ before text, store.read path = .ok before → change before = .ok text →
        text = before := by
  unfold revised
  cases hread : store.read path with
  | error problem => simp
  | ok before =>
    dsimp only
    cases hchange : change before with
    | error failure =>
      simp only [true_iff, Except.ok.injEq]
      rintro _ text rfl htext
      rw [hchange] at htext
      cases htext
    | ok text =>
      dsimp only
      have hbefore := Store.content?_eq_text_iff.mpr hread
      have hwritten := Store.content?_eq_text_iff.mpr (Store.read_write hstore hread text)
      split_ifs with h
      · simp only [true_iff, Except.ok.injEq]
        rintro _ after rfl hafter
        rw [hchange, Except.ok.injEq] at hafter
        rw [← hafter, h]
      · rw [hwritten, hbefore]
        refine ⟨fun hsame => absurd ?_ (Ne.symm h), fun hsame => ?_⟩
        · simpa using hsame
        · rw [hsame before text rfl hchange]

/-- A revision changes nothing anywhere else. -/
theorem content?_revised_of_ne {elsewhere : String}
    (hne : store.resolve? elsewhere ≠ store.resolve? path) :
    (revised path change store).content? elsewhere = store.content? elsewhere := by
  unfold revised
  cases hread : store.read path with
  | error problem => rfl
  | ok before =>
    dsimp only
    cases change before with
    | error failure => rfl
    | ok text =>
      dsimp only
      split_ifs
      · rfl
      · exact Store.content?_write_of_ne hstore hread hne text

/-- The text behind a revision that can be made. -/
theorem read_revised {before text : String} (hread : store.read path = .ok before)
    (hchange : change before = .ok text) : (revised path change store).read path = .ok text := by
  simp only [revised, hread, hchange]
  split_ifs with h
  · rw [hread, h]
  · exact Store.read_write hstore hread text

end Revised

/-! ### The steps of an installation -/

/-- What the first step of an installation makes of the text of a style sheet. -/
def Item.withVariables (item : Item) (settings : Settings) (options : Theme.Options) :
    String → Except Failure String :=
  Theme.installIntoText (item.vars.getD {}) settings
    { options with legacy := options.legacy.or item.legacy }

theorem runOn_updateVariables :
    runOn store (updateVariables (some path) (item.vars.getD {}) settings
      { options with legacy := options.legacy.or item.legacy }) =
      (if (store.content? path).isSome then
          revision path (item.withVariables settings options) store
        else .ok false,
        revised path (item.withVariables settings options) store) :=
  runOn_revise_existing _

theorem runOn_updateRules {rules : Entries Json.Value} (hrules : rules ≠ []) :
    runOn store (updateRules (some path) rules) =
      (if (store.content? path).isSome then revision path (Merge.mergeIntoText rules) store
        else .ok false,
        revised path (Merge.mergeIntoText rules) store) := by
  rw [updateRules, if_neg (by simpa using hrules)]
  exact runOn_revise_existing _

/-- A step of rules that fails has written nothing. -/
theorem eq_of_runOn_updateRules_error {rules : Entries Json.Value}
    (h : runOn store (updateRules (some path) rules) = (.error failure, after)) :
    after = store := by
  by_cases hrules : rules = []
  · simp [updateRules, hrules] at h
  · rw [runOn_updateRules hrules, Prod.mk.injEq] at h
    obtain ⟨hfails, rfl⟩ := h
    split_ifs at hfails
    exact revised_eq_self hfails

/-! ### The whole installation -/

/-- **A failed installation leaves what its first step left**, whichever step failed. -/
theorem eq_revised_of_installItem_error (hcss : settings.css = some path)
    (h : runOn store (installItem item settings options) = (.error failure, after)) :
    after = revised path (item.withVariables settings options) store := by
  simp only [installItem, hcss, runOn_bind, runOn_updateVariables] at h
  split at h
  · -- The first step was made, so it is the second one that failed.
    next hfirst =>
    obtain ⟨-, rfl⟩ := Prod.mk.inj hfirst
    split at h
    · cases h
    · next hsecond =>
      obtain rfl := (Prod.mk.inj h).2
      exact eq_of_runOn_updateRules_error hsecond
  · next hfirst =>
    exact (Prod.mk.inj h).2.symm.trans (Prod.mk.inj hfirst).2.symm

/-- **Rules that do not fit fail behind the variables**, which are written by then. -/
theorem runOn_installItem_of_error (hstore : store.IsConsistent) (hcss : settings.css = some path)
    {before text : String} (hread : store.read path = .ok before)
    (hvariables : item.withVariables settings options before = .ok text)
    (hrules : item.rules.getD [] ≠ [])
    (hmerge : Merge.mergeIntoText (item.rules.getD []) text = .error failure) :
    runOn store (installItem item settings options) =
      (.error failure, revised path (item.withVariables settings options) store) := by
  have hbehind := read_revised hstore _ hread hvariables
  have hthere := Store.content?_eq_text_iff.mpr hread
  have hthere' := Store.content?_eq_text_iff.mpr hbehind
  have hfirst : revision path (item.withVariables settings options) store =
      .ok (decide (before ≠ text)) := by
    simp only [revision, hread, hvariables, Except.map]
  have hsecond : revision path (Merge.mergeIntoText (item.rules.getD []))
      (revised path (item.withVariables settings options) store) = .error failure := by
    simp only [revision, hbehind, hmerge, Except.map]
  simp only [installItem, hcss, runOn_bind, runOn_updateVariables, hthere,
    Option.isSome_some, if_true, hfirst, runOn_updateRules hrules, hthere', hsecond,
    revised_eq_self hsecond]

/-- **A failed installation leaves the style sheet as it was** exactly where its first step
failed as well, or had nothing to change. It leaves every other file as it was. -/
theorem content?_installItem_eq_iff (hstore : store.IsConsistent)
    (hcss : settings.css = some path)
    (h : runOn store (installItem item settings options) = (.error failure, after)) :
    (after.content? path = store.content? path ↔
      ∀ before text, store.read path = .ok before →
        item.withVariables settings options before = .ok text → text = before) ∧
    ∀ elsewhere, store.resolve? elsewhere ≠ store.resolve? path →
      after.content? elsewhere = store.content? elsewhere := by
  rw [eq_revised_of_installItem_error hcss h]
  exact ⟨content?_revised_eq_iff hstore _, fun _ hne => content?_revised_of_ne hstore _ hne⟩

/-- An item whose rules hold a number where a value belongs. -/
def faultyItem : Item := { rules := some [("a", .object [("b", .number "1")])] }

theorem content?_installItem_eq_iff_faultyItem :
    let store : Store := [(["app.css"], .text ""), (["print.css"], .text "")]
    let after : Store := [(["app.css"], .text "@custom-variant dark (&:is(.dark *));"),
      (["print.css"], .text "")]
    let settings : Settings := { cssVariables := false, css := some "app.css", version := .v4 }
    store.IsConsistent ∧
      runOn store (installItem faultyItem settings {}) = (.error (.leaf "a" "b"), after) ∧
      (after.content? "app.css" = store.content? "app.css" ↔
        ∀ before text, store.read "app.css" = .ok before →
          faultyItem.withVariables settings {} before = .ok text → text = before) ∧
      ∀ elsewhere, store.resolve? elsewhere ≠ store.resolve? "app.css" →
        after.content? elsewhere = store.content? elsewhere := by
  intro store after settings
  have hstore : store.IsConsistent := by
    unfold Store.IsConsistent
    decide
  have hfails : runOn store (installItem faultyItem settings {}) =
      (.error (.leaf "a" "b"), after) := by
    decide +kernel
  exact ⟨hstore, hfails, content?_installItem_eq_iff hstore rfl hfails⟩

/-- Without variables an item still brings the dark variant, and that stays where its rules
fail. -/
theorem not_forall_content?_installItem_eq :
    ¬∀ (store after : Store) (path : String) (item : Item) (settings : Settings)
      (options : Theme.Options) (failure : Failure), store.IsConsistent →
      settings.css = some path →
      runOn store (installItem item settings options) = (.error failure, after) →
      after.content? path = store.content? path := by
  intro h
  let store : Store := [(["app.css"], .text "")]
  let settings : Settings := { cssVariables := false, css := some "app.css", version := .v4 }
  let written := "@custom-variant dark (&:is(.dark *));"
  have hstore : store.IsConsistent := by
    unfold Store.IsConsistent
    decide
  have hread : store.read "app.css" = .ok "" := by decide +kernel
  have hvariables : faultyItem.withVariables settings {} "" = .ok written := by decide +kernel
  have hmerge : Merge.mergeIntoText (faultyItem.rules.getD []) written =
      .error (.leaf "a" "b") := by
    decide +kernel
  have hrules : faultyItem.rules.getD [] ≠ [] := by simp [faultyItem]
  have hfails := runOn_installItem_of_error hstore rfl hread hvariables hrules hmerge
  have hsame := h store _ "app.css" faultyItem settings {} _ hstore rfl hfails
  rw [content?_revised_eq_iff hstore] at hsame
  exact absurd (hsame "" written hread hvariables) (by decide)

end Restyle.Project
