import Restyle.Proofs.Css.Imports
import Restyle.Proofs.Theme.Persistence

/-!
# What is added behind the variant

Behind the declaration of the variant `dark`, an installation makes additions only: rules, layers
and the inline theme at the end of a style sheet, and plugins. What is read off a style sheet may
**overlook** these (`Restyle.Theme.OverlooksAdditions`), as the order of its imports does and the
variants that it declares. In version 4 such a reading can be taken right behind the removal of the
scaffold (`Restyle.Theme.OverlooksAdditions.install`).
-/

namespace Restyle.Theme

open Restyle.Css (HasNo Keeps Label Node Place labels)
open Restyle.Project (Settings Version)

variable {α : Type} {read : List Node → α} {place : Place}

/-- What is read off a style sheet **overlooks additions** if it is the same with nodes at the end
that are neither imports nor variants, and with one more plugin. -/
structure OverlooksAdditions (read : List Node → α) : Prop where
  behind : ∀ {nodes new : List Node} {added : List (Option Label)},
    labels new = labels nodes ++ added → HasNo "import" added → HasNo "custom-variant" added →
      read new = read nodes
  plugin : ∀ params, Keeps read (Css.ensurePlugin params)

namespace OverlooksAdditions

theorem enter (h : OverlooksAdditions read)
    (himport : ∀ params, place.label ≠ .atRule "import" params)
    (hvariant : ∀ params, place.label ≠ .atRule "custom-variant" params) (withBreak : Bool)
    (f : List Node → List Node) : Keeps read (Css.enter place withBreak f) := by
  intro nodes
  obtain ⟨added, hlabels, hall⟩ := (Css.takesLabel_enter place withBreak f nodes).exists_append
  exact h.behind hlabels (fun params hmem => himport params (hall _ hmem).symm)
    (fun params hmem => hvariant params (hall _ hmem).symm)

theorem enterTheme (h : OverlooksAdditions read) (f : List Node → List Node) :
    Keeps read (Css.enter inlineTheme true f) :=
  h.enter (by simp [inlineTheme, Place.label]) (by simp [inlineTheme, Place.label]) true f

theorem writeRule (h : OverlooksAdditions read) (overwrite withBreak : Bool) (selector : String)
    (declarations : List (String × String)) :
    Keeps read (writeRule overwrite withBreak selector declarations) :=
  (h.enter (by simp [Place.label]) (by simp [Place.label]) withBreak _).otherwise

theorem installModes (h : OverlooksAdditions read) (version : Version) (overwrite : Bool)
    (selectors : Selectors) (vars : Variables) :
    Keeps read (installModes version overwrite selectors vars) := by
  cases version with
  | v3 =>
    exact (h.enter (by simp [baseLayer, Place.label]) (by simp [baseLayer, Place.label]) true
      _).otherwise
  | v4 => exact (h.writeRule _ _ _ _).comp (h.writeRule _ _ _ _)

theorem migrate (h : OverlooksAdditions read) (legacy : Legacy) : Keeps read (migrate legacy) := by
  have hplugins : Keeps read (migratePlugins legacy.plugins) := fun nodes =>
    Keeps.foldl (fun _ => h.plugin _) legacy.plugins nodes
  have hanimations : Keeps read (migrateAnimations legacy.animation) := (h.enterTheme _).otherwise
  have hkeyframes : Keeps read (migrateKeyframes legacy.keyframes) := (h.enterTheme _).otherwise
  exact hkeyframes.comp (hanimations.comp hplugins)

theorem carryOver (h : OverlooksAdditions read) (legacy : Option Legacy) :
    Keeps read (carryOver legacy) := by
  cases legacy with
  | none => exact fun _ => rfl
  | some legacy => exact h.migrate legacy

theorem ensureBase (h : OverlooksAdditions read) (version : Version) :
    Keeps read (ensureBase version) := by
  have hbase : (newBase version).label? = some (.atRule "layer" "base") := by cases version <;> rfl
  have hmarker : Css.breakMarker.label? = none := rfl
  have hpush : Keeps read (Css.push true (newBase version)) := by
    intro nodes
    unfold Css.push
    split_ifs
    · exact h.behind (List.map_append ..) (by simp [HasNo, hbase, hmarker])
        (by simp [HasNo, hbase, hmarker])
    · exact h.behind (List.map_append ..) (by simp [HasNo, hbase]) (by simp [HasNo, hbase])
  exact hpush.otherwise

theorem ensureBaseOf (h : OverlooksAdditions read) (settings : Settings) :
    Keeps read (ensureBaseOf settings) := by
  intro nodes
  unfold Theme.ensureBaseOf
  split_ifs
  · exact h.ensureBase settings.version nodes
  · rfl

/-- **Behind the removal of the scaffold, nothing but additions.** -/
theorem install (h : OverlooksAdditions read) {settings : Settings}
    (hversion : settings.version = .v4) (vars : Variables) (options : Options) (nodes : List Node) :
    read (install vars settings options nodes) =
      read (cleanUp options (ensureDarkVariant nodes)) := by
  have htheme : Keeps read (updateTheme options.overwrite vars) := (h.enterTheme _).otherwise
  have hinstalled := htheme.comp (h.installModes .v4 options.overwrite
    (.ofRegistry options.registry) vars)
  unfold Theme.install installVariables
  rw [hversion]
  refine (h.ensureBaseOf { settings with version := .v4 } _).trans ?_
  exact (h.carryOver options.legacy _).trans (hinstalled _)

end OverlooksAdditions

end Restyle.Theme
