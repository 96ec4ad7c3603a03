import ComponentModel.Proofs.Imports.Recording

/-!
# What imported components are replaced by

A flattened model imports nothing, its components have different names, and the components of the
model are still there under their own names. Those that were written out keep their content; those
that were imported have become copies of what they stand for, with their own children behind.
-/

namespace ComponentModel

/-- A component of a flattened model stands for a written one. What is written out has the same
content; what is imported has the content of a copy of the component that its source names, in
which further imports are replaced in turn. Where names are kept, so is the name of the component
and of all components that are written inside it. -/
inductive Library.StandsFor (library : Library) : Naming → Component → Component → Prop
  | plain {naming : Naming} {written result : Component}
      (unimported : written.source = none)
      (named : naming = .keep → result.name = written.name)
      (declarations : result.declarations = written.declarations)
      (math : result.math = written.math)
      (length : result.components.length = written.components.length)
      (each : ∀ pair ∈ written.components.zip result.components,
        StandsFor library naming pair.1 pair.2) :
      StandsFor library naming written result
  | imported {naming : Naming} {written result definition copy : Component} {document : Model}
      {source : ImportSource} {children : List Component}
      (imports : written.source = some source)
      (found : library.definition? source = some (document, definition))
      (copied : StandsFor library .fresh definition copy)
      (named : naming = .keep → result.name = written.name)
      (declarations : result.declarations = copy.declarations)
      (math : result.math = copy.math)
      (components : result.components = copy.components ++ children)
      (length : children.length = written.components.length)
      (each : ∀ pair ∈ written.components.zip children, StandsFor library naming pair.1 pair.2) :
      StandsFor library naming written result

namespace Expansion

/-- An expanded component stands for the one that is written. -/
theorem IsMadeBy.standsFor {library : Library} {naming : Naming} {expansion : Expansion}
    (made : expansion.IsMadeBy library naming)
    (named : naming = .keep → expansion.name = expansion.written.name) :
    library.StandsFor naming expansion.written expansion.component := by
  have pairs {inside : List Expansion} {naming : Naming}
      (kept : naming = .keep → ∀ inner ∈ inside, inner.name = inner.written.name)
      (each : ∀ inner ∈ inside, (naming = .keep → inner.name = inner.written.name) →
        library.StandsFor naming inner.written inner.component) :
      ∀ pair ∈ (inside.map written).zip (components inside),
        library.StandsFor naming pair.1 pair.2 := by
    rw [components_eq, List.zip_map']
    intro pair membership
    obtain ⟨inner, isChild, rfl⟩ := List.mem_map.mp membership
    exact each inner isChild fun keep => kept keep inner isChild
  induction made with
  | @plain naming written name inside unimported children kept _ ih =>
      refine .plain unimported named ?_ ?_ ?_ ?_
      · rw [component]; rfl
      · rw [component]; rfl
      · rw [component, components_eq, List.length_map, ← List.length_map, children]
        rfl
      · rw [component]
        exact children ▸ pairs kept ih
  | @imported naming written document copy inside source imports found _ children kept _ copied
      ih =>
      refine .imported imports found (copied nofun) ?_ ?_ ?_ ?_ ?_ (children ▸ pairs kept ih)
      · intro keep
        rw [name_component]
        exact named keep
      · rw [component]
      · rw [component]
      · rw [component]
      · rw [components_eq, List.length_map, ← List.length_map, children]
        rfl

end Expansion

namespace Library.Unfolds

variable {library : Library} {model flat : Model} {expansions : List Expansion}

theorem preorder_eq (unfolds : library.Unfolds model flat expansions) :
    flat.preorder = expansions.flatMap fun expansion => expansion.component.preorder := by
  rw [Model.preorder, Component.preorderAll_eq, ← unfolds.components, List.flatMap_map]

theorem map_written (unfolds : library.Unfolds model flat expansions) :
    (Expansion.preorderAll expansions).map Expansion.written = model.preorder := by
  rw [Model.preorder, Expansion.preorderAll_eq, Component.preorderAll_eq, ← unfolds.written,
    List.map_flatMap, List.flatMap_map]
  exact List.flatMap_congr fun expansion isTop =>
    (unfolds.made expansion isTop).map_written_preorder

/-- All components that are written in the model keep their names. -/
theorem name_eq (unfolds : library.Unfolds model flat expansions) {expansion : Expansion}
    (membership : expansion ∈ Expansion.preorderAll expansions) :
    expansion.IsMadeBy library .keep ∧ expansion.name = expansion.written.name := by
  rw [Expansion.preorderAll_eq, List.mem_flatMap] at membership
  obtain ⟨top, isTop, below⟩ := membership
  obtain ⟨made, named⟩ := (unfolds.made top isTop).of_mem_preorder below
  exact ⟨made, named rfl (unfolds.kept top isTop)⟩

/-- The names of a flattened model are those of the model and those chosen in copies. -/
theorem names_perm (unfolds : library.Unfolds model flat expansions) :
    (flat.preorder.map Component.name).Perm
      (model.preorder.map Component.name ++ Expansion.chosenAll .keep expansions) := by
  have kept : (Expansion.preorderAll expansions).map Expansion.name =
      model.preorder.map Component.name := by
    rw [← unfolds.map_written, List.map_map]
    exact List.map_congr_left fun expansion membership => (unfolds.name_eq membership).2
  rw [unfolds.preorder_eq, List.map_flatMap, ← kept]
  exact Expansion.flatMap_names_perm_of fun expansion _ => expansion.names_perm

/-- The names of a flattened model differ. -/
theorem nodup_names (unfolds : library.Unfolds model flat expansions)
    (distinct : (model.preorder.map Component.name).Nodup) :
    (flat.preorder.map Component.name).Nodup := by
  refine unfolds.names_perm.nodup_iff.mpr (List.perm_append_comm.nodup_iff.mpr ?_)
  exact ((List.reverse_perm _).append_right _).nodup_iff.mp (unfolds.nodup distinct)

end Library.Unfolds

/-- Flattening replaces every imported component by what it stands for: a flattened model imports
nothing, its names differ, its top components stand one by one for those of the model, and every
component of the model is there under its own name. -/
theorem Library.flatten_replaces {library : Library} {model flat : Model}
    (distinct : (model.preorder.map Component.name).Nodup)
    (flattened : library.flatten model = .ok flat) :
    (∀ component ∈ flat.preorder, component.source = none) ∧
      (flat.preorder.map Component.name).Nodup ∧
      List.Forall₂ (library.StandsFor .keep) model.components flat.components ∧
      ∀ written ∈ model.preorder, ∃ result ∈ flat.preorder,
        result.name = written.name ∧ library.StandsFor .keep written result := by
  obtain ⟨expansions, unfolds⟩ := Library.exists_unfolding flattened
  have member (expansion : Expansion) (membership : expansion ∈ Expansion.preorderAll expansions) :
      expansion.component ∈ flat.preorder := by
    rw [Expansion.preorderAll_eq, List.mem_flatMap] at membership
    obtain ⟨top, isTop, below⟩ := membership
    rw [unfolds.preorder_eq]
    exact List.mem_flatMap.mpr ⟨top, isTop, Expansion.component_mem_preorder below⟩
  refine ⟨?_, unfolds.nodup_names distinct, ?_, ?_⟩
  · rw [unfolds.preorder_eq]
    intro component membership
    obtain ⟨expansion, -, below⟩ := List.mem_flatMap.mp membership
    exact expansion.source_eq_none component below
  · rw [← unfolds.written, ← unfolds.components, List.forall₂_map_left_iff,
      List.forall₂_map_right_iff, List.forall₂_same]
    exact fun expansion isTop => (unfolds.made expansion isTop).standsFor fun _ =>
      unfolds.kept expansion isTop
  · rw [← unfolds.map_written]
    intro written membership
    obtain ⟨expansion, isWritten, rfl⟩ := List.mem_map.mp membership
    obtain ⟨made, named⟩ := unfolds.name_eq isWritten
    exact ⟨expansion.component, member expansion isWritten,
      expansion.name_component.trans named, made.standsFor fun _ => named⟩

/-- A document with a membrane that has a channel. -/
def membraneDocument : Model where
  schema := currentSchema
  name := "membrane_model"
  units := []
  components := [
    ⟨"membrane", [⟨"V", "volt", none, some .publicAndPrivate⟩], none,
      [⟨"channel", [⟨"V", "volt", none, some .public⟩], none, [], none⟩], none⟩]
  connections := [⟨"membrane", "channel", [⟨"V", "V"⟩]⟩]

/-- A document in which two imported membranes touch each other. -/
def junctionDocument : Model where
  schema := currentSchema
  name := "junction_model"
  units := []
  components := [
    ⟨"junction", [], none, [
      ⟨"left", [], none, [], some ⟨"membrane.json", "membrane"⟩⟩,
      ⟨"right", [], none, [], some ⟨"membrane.json", "membrane"⟩⟩], none⟩]
  connections := [⟨"left", "right", [⟨"V", "V"⟩]⟩]

def tissueLibrary : Library :=
  ⟨[("junction.json", junctionDocument), ("membrane.json", membraneDocument)]⟩

/-- A model with an imported junction that has a further channel inside it. -/
def tissue : Model where
  schema := currentSchema
  name := "tissue"
  units := []
  components := [
    ⟨"cleft", [], none, [⟨"channel", [], none, [], none⟩], some ⟨"junction.json", "junction"⟩⟩]
  connections := []

theorem flatten_replaces_tissue :
    ∃ flat, tissueLibrary.flatten tissue = .ok flat ∧
      flat.preorder.map Component.name =
        ["cleft", "left", "channel_2", "right", "channel_3", "channel"] ∧
      (∀ component ∈ flat.preorder, component.source = none) ∧
      (flat.preorder.map Component.name).Nodup ∧
      List.Forall₂ (tissueLibrary.StandsFor .keep) tissue.components flat.components ∧
      ∀ written ∈ tissue.preorder, ∃ result ∈ flat.preorder,
        result.name = written.name ∧ tissueLibrary.StandsFor .keep written result :=
  ⟨_, rfl, rfl, Library.flatten_replaces (by decide) rfl⟩

end ComponentModel
