import Restyle.Proofs.Css.Distinct
import Restyle.Proofs.Order.Distinct

/-!
# Imports in front

An `@import` counts only in front of everything else in a style sheet. The imports **lead** if
there are but imports and comments in front of each of them (`Restyle.Css.ImportsLead`).

What is added at the end is no import, and keeps the imports where they are. An import goes
behind the last one, and a plugin behind the last plugin, else behind the last import, else to
the front. So where the imports lead they do so afterwards, and an import or a plugin that was
missing becomes the last of its kind (`Restyle.Css.paramsOf_ensureImport`,
`Restyle.Css.pluginsOf_ensurePlugin`).
-/

namespace Restyle

section Missing

variable {α : Type} [DecidableEq α]

/-- A list with all that is asked for: what is missing is behind it, in the order in which it was
first asked for. -/
def withMissing (old requested : List α) : List α :=
  old ++ (firsts requested).filter (· ∉ old)

@[simp] theorem withMissing_nil (old : List α) : withMissing old [] = old := by
  simp [withMissing, firsts]

theorem withMissing_of_mem {x : α} {old : List α} (h : x ∈ old) : withMissing old [x] = old := by
  simp [withMissing, firsts, h]

theorem withMissing_of_notMem {x : α} {old : List α} (h : x ∉ old) :
    withMissing old [x] = old ++ [x] := by
  simp [withMissing, firsts, h]

/-- Asking twice is asking for both at once. -/
theorem withMissing_append (old xs ys : List α) :
    withMissing old (xs ++ ys) = withMissing (withMissing old xs) ys := by
  have hfilter : ((firsts ys).filter (· ∉ xs)).filter (· ∉ old) =
      (firsts ys).filter (· ∉ old ++ (firsts xs).filter (· ∉ old)) := by
    rw [List.filter_filter]
    refine List.filter_congr fun y _ => ?_
    by_cases hold : y ∈ old <;> simp [hold]
  unfold withMissing
  rw [firsts_append, List.filter_append, hfilter, List.append_assoc]

end Missing

namespace Css

variable {node : Node} {nodes new : List Node} {label : Label} {name params : String}
  {old front rest : List (Option Label)}

/-! ### At-rules of a name -/

/-- The parameters of an at-rule of a name. -/
def Label.paramsOf? (name : String) : Label → Option String
  | .atRule other params => if other = name then some params else none
  | _ => none

/-- The parameters under some labels of the at-rules of a name. -/
def labelParams (name : String) (old : List (Option Label)) : List String :=
  old.reduceOption.filterMap (Label.paramsOf? name)

/-- The parameters of the at-rules of a name, in their order. -/
def paramsOf (name : String) (nodes : List Node) : List String :=
  labelParams name (labels nodes)

/-- The plugins that are loaded, in double quotes and in their order. -/
def pluginsOf (nodes : List Node) : List String :=
  (paramsOf "plugin" nodes).map quotedPlugin

/-- No at-rule of a name. -/
def HasNo (name : String) (old : List (Option Label)) : Prop :=
  ∀ params, some (.atRule name params) ∉ old

theorem mem_labelParams : params ∈ labelParams name old ↔ some (.atRule name params) ∈ old := by
  rw [labelParams, List.mem_filterMap]
  constructor
  · rintro ⟨label, hlabel, hparams⟩
    rw [List.reduceOption_mem_iff] at hlabel
    cases label <;> grind [Label.paramsOf?]
  · intro h
    exact ⟨.atRule name params, List.reduceOption_mem_iff.mpr h, by simp [Label.paramsOf?]⟩

theorem labelParams_append (name : String) (front rest : List (Option Label)) :
    labelParams name (front ++ rest) = labelParams name front ++ labelParams name rest := by
  rw [labelParams, List.reduceOption_append, List.filterMap_append]
  rfl

theorem HasNo.labelParams (h : HasNo name old) : labelParams name old = [] :=
  List.eq_nil_iff_forall_not_mem.mpr fun params hmem => h params (mem_labelParams.mp hmem)

theorem hasNo_append : HasNo name (front ++ rest) ↔ HasNo name front ∧ HasNo name rest := by
  simp [HasNo, forall_and]

theorem mem_paramsOf :
    params ∈ paramsOf name nodes ↔ nodes.any (Place.atRule name params).isAt := by
  rw [paramsOf, mem_labelParams, any_isAt_iff_labels, Place.label]

/-- The plugins are those that are loaded. -/
theorem mem_pluginsOf {quoted : String} :
    quoted ∈ pluginsOf nodes ↔ nodes.any (Node.loadsPlugin quoted) := by
  simp only [pluginsOf, List.mem_map, mem_paramsOf, any_loadsPlugin_iff, and_comm]

/-! ### The last at-rule of a name -/

theorem Node.isAtRuleNamed_iff_label? :
    node.isAtRuleNamed name ↔ ∃ params, node.label? = some (.atRule name params) := by
  cases node <;> simp [isAtRuleNamed, atRule?, label?]

theorem any_isAtRuleNamed_iff :
    nodes.any (Node.isAtRuleNamed name) ↔ ¬HasNo name (labels nodes) := by
  simp only [HasNo, labels, List.any_eq_true, Node.isAtRuleNamed_iff_label?, List.mem_map,
    not_forall, not_not]
  constructor
  · rintro ⟨node, hnode, params, hlabel⟩
    exact ⟨params, node, hnode, hlabel⟩
  · rintro ⟨params, node, hnode, hlabel⟩
    exact ⟨node, hnode, params, hlabel⟩

theorem lastIndex?_concat (p : Node → Bool) (nodes : List Node) (node : Node) :
    lastIndex? p (nodes ++ [node]) =
      if p node then some nodes.length else lastIndex? p nodes := by
  rw [lastIndex?, List.reverse_append, List.reverse_singleton, List.singleton_append,
    List.findIdx?_cons]
  split_ifs
  · simp
  · rw [lastIndex?, Option.map_map, List.length_append, List.length_singleton]
    congr 1
    funext fromEnd
    simp only [Function.comp_apply]
    omega

/-- **Where the last at-rule of a name is**: nowhere, or between nodes the latter of which are
none. -/
theorem lastAtRule?_cases (name : String) (nodes : List Node) :
    (lastAtRule? name nodes = none ∧ HasNo name (labels nodes)) ∨
      ∃ front last rest params, nodes = front ++ last :: rest ∧
        lastAtRule? name nodes = some front.length ∧
        last.label? = some (.atRule name params) ∧ HasNo name (labels rest) := by
  -- From the end: the node behind is of that name, or it makes no difference.
  induction nodes using List.reverseRecOn with
  | nil => exact .inl ⟨rfl, nofun⟩
  | append_singleton nodes node ih =>
    rw [lastAtRule?, lastIndex?_concat]
    split_ifs with hnode
    · obtain ⟨params, hlabel⟩ := Node.isAtRuleNamed_iff_label?.mp hnode
      exact .inr ⟨nodes, node, [], params, rfl, rfl, hlabel, nofun⟩
    · have hnot (params : String) : some (.atRule name params) ∉ labels [node] := fun hmem =>
        hnode (Node.isAtRuleNamed_iff_label?.mpr ⟨params, (List.mem_singleton.mp hmem).symm⟩)
      rw [← lastAtRule?]
      rcases ih with ⟨hlast, hnone⟩ | ⟨front, last, rest, params, rfl, hlast, hlabel, hrest⟩
      · refine .inl ⟨hlast, ?_⟩
        rw [labels, List.map_append]
        exact hasNo_append.mpr ⟨hnone, hnot⟩
      · refine .inr ⟨front, last, rest ++ [node], params, by simp, hlast, hlabel, ?_⟩
        rw [labels, List.map_append]
        exact hasNo_append.mpr ⟨hrest, hnot⟩

/-- New nodes behind the last at-rule of a name. -/
theorem labels_insertAt_behind (hnew : new ≠ []) (front : List Node) (last : Node)
    (rest : List Node) :
    labels (insertAt (front.length + 1) new (front ++ last :: rest)) =
      labels (front ++ [last]) ++ labels new ++ labels rest := by
  have hsplit : front ++ last :: rest = (front ++ [last]) ++ rest := by simp
  have hlength : front.length + 1 = (front ++ [last]).length := by simp
  rw [labels_insertAt hnew, hsplit, hlength, List.take_left, List.drop_left]

/-! ### Imports that lead -/

/-- A label may stand in front of another one: an import follows nothing but imports and
comments. -/
def MayPrecede (label later : Option Label) : Prop :=
  (∃ params, later = some (.atRule "import" params)) →
    (∃ params, label = some (.atRule "import" params)) ∨ label = none

/-- **The imports lead** if nothing but imports and comments is in front of any import. -/
def ImportsLead (nodes : List Node) : Prop := (labels nodes).Pairwise MayPrecede

/-- Behind, there may be anything but imports. -/
theorem pairwise_append_of_hasNo (h : front.Pairwise MayPrecede) (hrest : HasNo "import" rest) :
    (front ++ rest).Pairwise MayPrecede := by
  have hmay (label later : Option Label) (hlater : later ∈ rest) : MayPrecede label later := by
    rintro ⟨params, rfl⟩
    exact absurd hlater (hrest params)
  exact List.pairwise_append.mpr
    ⟨h, List.pairwise_of_forall_mem_list fun label _ later => hmay label later,
      fun label _ later => hmay label later⟩

/-- What is behind a node that is neither an import nor a comment is no import. -/
theorem hasNo_of_pairwise {name : String} (hname : name ≠ "import")
    (h : (front ++ some (.atRule name params) :: rest).Pairwise MayPrecede) :
    HasNo "import" rest := by
  intro other hmem
  obtain ⟨-, hbehind, -⟩ := List.pairwise_append.mp h
  rcases (List.pairwise_cons.mp hbehind).1 _ hmem ⟨other, rfl⟩ with ⟨_, hlabel⟩ | hlabel
  · cases hlabel
    exact hname rfl
  · cases hlabel

/-- Behind an import, there may be anything. -/
theorem pairwise_concat_import
    (h : (front ++ [some (Label.atRule "import" params)]).Pairwise MayPrecede)
    (label : Option Label) :
    (front ++ [some (Label.atRule "import" params)] ++ [label]).Pairwise MayPrecede := by
  refine List.pairwise_append.mpr ⟨h, List.pairwise_singleton _ _, ?_⟩
  intro other hother later _ _
  rcases List.mem_append.mp hother with hother | hother
  · exact (List.pairwise_append.mp h).2.2 other hother _ List.mem_cons_self ⟨params, rfl⟩
  · exact .inl ⟨params, List.mem_singleton.mp hother⟩

/-! ### Where imports go -/

/-- **An import goes behind the last one**, or in front of everything. -/
theorem ensureImport_cases (params : String) (nodes : List Node) :
    (params ∈ paramsOf "import" nodes ∧ ensureImport params nodes = nodes) ∨
      (params ∉ paramsOf "import" nodes ∧ ∃ front rest, labels nodes = front ++ rest ∧
        labels (ensureImport params nodes) = front ++ [some (.atRule "import" params)] ++ rest ∧
        (front = [] ∨ ∃ before other, front = before ++ [some (.atRule "import" other)]) ∧
        HasNo "import" rest) := by
  unfold ensureImport
  split_ifs with hany
  · exact .inl ⟨mem_paramsOf.mpr hany, rfl⟩
  · refine .inr ⟨fun hmem => hany (mem_paramsOf.mp hmem), ?_⟩
    rcases lastAtRule?_cases "import" nodes with
      ⟨hlast, hnone⟩ | ⟨front, last, rest, other, rfl, hlast, hlabel, hrest⟩
    · rw [hlast]
      exact ⟨[], labels nodes, rfl, labels_insertAt (by simp) 0 nodes, .inl rfl, hnone⟩
    · rw [hlast]
      exact ⟨labels (front ++ [last]), labels rest, by simp [labels],
        labels_insertAt_behind (by simp) front last rest,
        .inr ⟨labels front, other, by simp [labels, hlabel]⟩, hrest⟩

theorem ImportsLead.ensureImport (h : ImportsLead nodes) (params : String) :
    ImportsLead (ensureImport params nodes) := by
  rcases ensureImport_cases params nodes with ⟨-, hsame⟩ |
    ⟨-, front, rest, hold, hnew, hfront, hrest⟩
  · rwa [hsame]
  · rw [ImportsLead, hnew]
    refine pairwise_append_of_hasNo ?_ hrest
    rcases hfront with rfl | ⟨before, other, rfl⟩
    · exact List.pairwise_singleton _ _
    · rw [ImportsLead, hold] at h
      exact pairwise_concat_import (List.pairwise_append.mp h).1 _

/-- **An import that was missing is the last one.** -/
theorem paramsOf_ensureImport (params : String) (nodes : List Node) :
    paramsOf "import" (ensureImport params nodes) =
      withMissing (paramsOf "import" nodes) [params] := by
  rcases ensureImport_cases params nodes with ⟨hmem, hsame⟩ |
    ⟨hmem, front, rest, hold, hnew, -, hrest⟩
  · rw [hsame, withMissing_of_mem hmem]
  · rw [withMissing_of_notMem hmem, paramsOf, paramsOf, hold, hnew]
    simp only [labelParams_append, hrest.labelParams, List.append_nil]
    rfl

/-- The plugins are as before. -/
theorem pluginsOf_ensureImport (params : String) (nodes : List Node) :
    pluginsOf (ensureImport params nodes) = pluginsOf nodes := by
  rcases ensureImport_cases params nodes with ⟨-, hsame⟩ | ⟨-, front, rest, hold, hnew, -, -⟩
  · rw [hsame]
  · have himport : labelParams "plugin" [some (.atRule "import" params)] = [] := rfl
    rw [pluginsOf, pluginsOf, paramsOf, paramsOf, hold, hnew]
    simp only [labelParams_append, himport, List.append_nil]

/-! ### Where plugins go -/

/-- **A plugin goes behind the last one**, behind the last import, or in front. -/
theorem ensurePlugin_cases (params : String) (nodes : List Node) :
    (quotedPlugin params ∈ pluginsOf nodes ∧ ensurePlugin params nodes = nodes) ∨
      (quotedPlugin params ∉ pluginsOf nodes ∧ ∃ front new rest, labels nodes = front ++ rest ∧
        labels (ensurePlugin params nodes) = front ++ new ++ rest ∧
        (HasNo "import" new ∧ labelParams "plugin" new = [writtenPlugin params]) ∧
        HasNo "plugin" rest ∧ (ImportsLead nodes → HasNo "import" rest)) := by
  rw [ensurePlugin_eq]
  split_ifs with hany
  · exact .inl ⟨mem_pluginsOf.mpr hany, rfl⟩
  · refine .inr ⟨fun hmem => hany (mem_pluginsOf.mp hmem), ?_⟩
    rcases lastAtRule?_cases "plugin" nodes with
      ⟨hlast, hnone⟩ | ⟨front, last, rest, other, rfl, hlast, hlabel, hrest⟩
    · -- No plugin is there, so the imports alone tell where it goes.
      rcases lastAtRule?_cases "import" nodes with
        ⟨himports, hnoImport⟩ | ⟨front, last, rest, other, rfl, himports, hlabel, hrest⟩
      · rw [hlast, himports]
        exact ⟨[], _, labels nodes, rfl, labels_insertAt (by simp) 0 nodes,
          ⟨by simp [HasNo, labels, Node.label?, breakMarker], rfl⟩, hnone, fun _ => hnoImport⟩
      · rw [hlast, himports]
        have hsplit : labels (front ++ last :: rest) = labels (front ++ [last]) ++ labels rest := by
          simp [labels]
        exact ⟨_, _, labels rest, hsplit, labels_insertAt_behind (by simp) front last rest,
          ⟨by simp [HasNo, labels, Node.label?, breakMarker], rfl⟩,
          (hasNo_append.mp (hsplit ▸ hnone)).2, fun _ => hrest⟩
    · -- Where the imports lead, there is none behind a plugin.
      rw [hlast]
      have hsplit : labels (front ++ last :: rest) =
          labels front ++ some (.atRule "plugin" other) :: labels rest := by
        simp [labels, hlabel]
      refine ⟨labels (front ++ [last]), _, labels rest, by simp [labels],
        labels_insertAt_behind (by simp) front last rest,
        ⟨by simp [HasNo, labels, Node.label?], rfl⟩, hrest, fun hlead => ?_⟩
      rw [ImportsLead, hsplit] at hlead
      exact hasNo_of_pairwise (by decide) hlead

theorem ImportsLead.ensurePlugin (h : ImportsLead nodes) (params : String) :
    ImportsLead (ensurePlugin params nodes) := by
  rcases ensurePlugin_cases params nodes with
    ⟨-, hsame⟩ | ⟨-, front, new, rest, hold, hnew, ⟨hnone, -⟩, -, hrest⟩
  · rwa [hsame]
  · have hfront : front.Pairwise MayPrecede := by
      rw [ImportsLead, hold] at h
      exact (List.pairwise_append.mp h).1
    rw [ImportsLead, hnew, List.append_assoc]
    exact pairwise_append_of_hasNo hfront (hasNo_append.mpr ⟨hnone, hrest h⟩)

/-- The imports are as before. -/
theorem paramsOf_ensurePlugin (params : String) (nodes : List Node) :
    paramsOf "import" (ensurePlugin params nodes) = paramsOf "import" nodes := by
  rcases ensurePlugin_cases params nodes with
    ⟨-, hsame⟩ | ⟨-, front, new, rest, hold, hnew, ⟨hnone, -⟩, -, -⟩
  · rw [hsame]
  · rw [paramsOf, paramsOf, hold, hnew]
    simp only [labelParams_append, hnone.labelParams, List.append_nil]

/-- **A plugin that was missing is the last one.** -/
theorem pluginsOf_ensurePlugin (params : String) (nodes : List Node) :
    pluginsOf (ensurePlugin params nodes) =
      withMissing (pluginsOf nodes) [quotedPlugin params] := by
  rcases ensurePlugin_cases params nodes with
    ⟨hmem, hsame⟩ | ⟨hmem, front, new, rest, hold, hnew, ⟨-, hplugin⟩, hrest, -⟩
  · rw [hsame, withMissing_of_mem hmem]
  · rw [withMissing_of_notMem hmem, pluginsOf, pluginsOf, paramsOf, paramsOf, hold, hnew]
    simp only [labelParams_append, hrest.labelParams, hplugin, List.append_nil, List.map_append,
      List.map_singleton, quotedPlugin_writtenPlugin]

/-! ### Labels at the end -/

/-- What is added for a label that is neither that of an import nor that of a plugin. -/
theorem TakesLabel.exists_append {old new : List (Option Label)} (h : TakesLabel label old new) :
    ∃ behind, new = old ++ behind ∧ ∀ other, some other ∈ behind → other = label := by
  cases h with
  | there => exact ⟨[], (List.append_nil old).symm, nofun⟩
  | added => exact ⟨_, rfl, by simp⟩
  | marked => exact ⟨_, rfl, by simp⟩

end Css

end Restyle
