import ComponentModel.Model.Library
import Mathlib.Data.List.Perm.Basic
import Mathlib.Data.List.Nodup

/-!
# Records of expansions

Flattening expands a component into another one: its own content under a new name, or the copy of
what it stands for with its own children behind. An expansion records how this was done, down to
the copies inside copies, so that the names, the tree and the connections of a flattened model can
be read off one object.
-/

namespace ComponentModel

/-! ## Trees of components -/

namespace Component

theorem preorder_eq (component : Component) :
    component.preorder = component :: preorderAll component.components := by
  cases component
  rw [preorder]

theorem preorderAll_eq (components : List Component) :
    preorderAll components = components.flatMap preorder := by
  induction components with
  | nil => rw [preorderAll, List.flatMap_nil]
  | cons head rest ih => rw [preorderAll, ih, List.flatMap_cons]

theorem self_mem_preorder (component : Component) : component ∈ component.preorder := by
  rw [preorder_eq]
  exact List.mem_cons_self

/-- The sources that are named in the tree of a component. -/
def sources (component : Component) : List ImportSource :=
  component.preorder.filterMap Component.source

end Component

/-- The sources that are named in a model. -/
def Model.sources (model : Model) : List ImportSource :=
  model.preorder.filterMap Component.source

/-- The document and the component in it that a source names. -/
def Library.definition? (library : Library) (source : ImportSource) :
    Option (Model × Component) := do
  let document ← library.get? source.url
  let definition ← document.findComponent source.component
  return (document, definition)

theorem Library.definition?_eq_some {library : Library} {source : ImportSource} {document : Model}
    {definition : Component} :
    library.definition? source = some (document, definition) ↔
      library.get? source.url = some document ∧
        document.findComponent source.component = some definition := by
  simp only [definition?, Option.bind_eq_bind, Option.bind_eq_some_iff, Option.pure_def,
    Option.some.injEq, Prod.mk.injEq]
  constructor
  · rintro ⟨_, found, _, foundComponent, rfl, rfl⟩
    exact ⟨found, foundComponent⟩
  · rintro ⟨found, foundComponent⟩
    exact ⟨document, found, definition, foundComponent, rfl, rfl⟩

/-! ## Expansions -/

/-- How a component has been expanded, together with the components inside it. -/
inductive Expansion where
  /-- A component of its own, under a new name. -/
  | plain (written : Component) (name : String) (inside : List Expansion)
  /-- An importing component, with the document that it imports from and the expansion of what it
  stands for. -/
  | imported (written : Component) (document : Model) (copy : Expansion) (inside : List Expansion)

/-- The copy that has been made for an importing component, and the document of the copy. -/
structure ImportInstance where
  document : Model
  copy : Expansion

namespace Expansion

@[elab_as_elim]
theorem induction {motive : Expansion → Prop}
    (plain : ∀ written name inside, (∀ inner ∈ inside, motive inner) →
      motive (.plain written name inside))
    (imported : ∀ written document copy inside, motive copy → (∀ inner ∈ inside, motive inner) →
      motive (.imported written document copy inside))
    (expansion : Expansion) : motive expansion :=
  Expansion.rec (motive_1 := motive) (motive_2 := fun inside => ∀ inner ∈ inside, motive inner)
    plain imported (by simp) (fun _ _ head rest => List.forall_mem_cons.mpr ⟨head, rest⟩) expansion

/-- The component as it is written. -/
def written : Expansion → Component
  | plain written _ _ => written
  | imported written _ _ _ => written

/-- The new name. -/
def name : Expansion → String
  | plain _ name _ => name
  | imported _ _ copy _ => copy.name

/-- The expansions of the children that are written inside the component. -/
def inside : Expansion → List Expansion
  | plain _ _ inside => inside
  | imported _ _ _ inside => inside

mutual

/-- The expanded component. -/
def component : Expansion → Component
  | plain written name inside => ⟨name, written.declarations, written.math, components inside, none⟩
  | imported _ _ copy inside =>
      { copy.component with components := copy.component.components ++ components inside }

/-- The expanded components of a list. -/
def components : List Expansion → List Component
  | [] => []
  | expansion :: rest => expansion.component :: components rest

end

mutual

/-- The expansions of a component and of all components that are written inside it. -/
def preorder : Expansion → List Expansion
  | plain written name inside => .plain written name inside :: preorderAll inside
  | imported written document copy inside =>
      .imported written document copy inside :: preorderAll inside

/-- The expansions of the components of a list and of all components inside them. -/
def preorderAll : List Expansion → List Expansion
  | [] => []
  | expansion :: rest => expansion.preorder ++ preorderAll rest

end

mutual

/-- The names that have been chosen inside a component: where names are kept, only those inside of
copies. -/
def chosen (naming : Naming) : Expansion → List String
  | plain _ _ inside => chosenAll naming inside
  | imported _ _ copy inside => copy.chosen .fresh ++ chosenAll naming inside

/-- The names that have been chosen for the components of a list and inside them. -/
def chosenAll (naming : Naming) : List Expansion → List String
  | [] => []
  | expansion :: rest =>
      (match naming with
        | .keep => []
        | .fresh => [expansion.name]) ++ expansion.chosen naming ++ chosenAll naming rest

end

mutual

/-- The copies that have been made, each behind those that have been made inside it. -/
def instances : Expansion → List ImportInstance
  | plain _ _ inside => instancesAll inside
  | imported _ document copy inside => copy.instances ++ ⟨document, copy⟩ :: instancesAll inside

/-- The copies that have been made for the components of a list. -/
def instancesAll : List Expansion → List ImportInstance
  | [] => []
  | expansion :: rest => expansion.instances ++ instancesAll rest

end

/-- The new names of all components that are written inside a component, by their names. -/
def newNames (expansion : Expansion) : Renaming :=
  expansion.preorder.map fun inner => (inner.written.name, inner.name)

/-- The names of the expanded component and of all components inside it. -/
def names (expansion : Expansion) : List String :=
  expansion.component.preorder.map Component.name

theorem components_eq (expansions : List Expansion) :
    components expansions = expansions.map component := by
  induction expansions with
  | nil => rw [components, List.map_nil]
  | cons head rest ih => rw [components, ih, List.map_cons]

theorem preorder_eq (expansion : Expansion) :
    expansion.preorder = expansion :: preorderAll expansion.inside := by
  cases expansion <;> rw [preorder] <;> rfl

theorem preorderAll_eq (expansions : List Expansion) :
    preorderAll expansions = expansions.flatMap preorder := by
  induction expansions with
  | nil => rw [preorderAll, List.flatMap_nil]
  | cons head rest ih => rw [preorderAll, ih, List.flatMap_cons]

theorem instancesAll_eq (expansions : List Expansion) :
    instancesAll expansions = expansions.flatMap instances := by
  induction expansions with
  | nil => rw [instancesAll, List.flatMap_nil]
  | cons head rest ih => rw [instancesAll, ih, List.flatMap_cons]

theorem self_mem_preorder (expansion : Expansion) : expansion ∈ expansion.preorder := by
  rw [preorder_eq]
  exact List.mem_cons_self

/-! ## Names of expanded components -/

@[simp] theorem name_component (expansion : Expansion) :
    expansion.component.name = expansion.name := by
  induction expansion using induction with
  | plain written name inside _ => rw [component]; rfl
  | imported written document copy inside copied _ => rw [component]; exact copied

theorem preorder_component_plain (written : Component) (name : String) (inside : List Expansion) :
    (plain written name inside).component.preorder =
      (plain written name inside).component ::
        inside.flatMap fun inner => inner.component.preorder := by
  rw [Component.preorder_eq, component, components_eq, Component.preorderAll_eq, List.flatMap_map]

/-- Below an expanded importing component stand what is below the copy and the expanded
children. -/
theorem preorder_component_imported (written : Component) (document : Model) (copy : Expansion)
    (inside : List Expansion) :
    (imported written document copy inside).component.preorder =
      (imported written document copy inside).component ::
        (Component.preorderAll copy.component.components ++
          inside.flatMap fun inner => inner.component.preorder) := by
  rw [Component.preorder_eq, component, components_eq, Component.preorderAll_eq,
    List.flatMap_append, List.flatMap_map, Component.preorderAll_eq]

theorem names_plain (written : Component) (name : String) (inside : List Expansion) :
    (plain written name inside).names = name :: inside.flatMap names := by
  rw [names, preorder_component_plain, List.map_cons, name_component, List.map_flatMap]
  rfl

theorem names_imported (written : Component) (document : Model) (copy : Expansion)
    (inside : List Expansion) :
    (imported written document copy inside).names = copy.names ++ inside.flatMap names := by
  rw [names, names, preorder_component_imported, Component.preorder_eq copy.component,
    List.map_cons, List.map_cons, List.map_append, List.map_flatMap, name_component,
    name_component]
  rfl

theorem name_mem_names (expansion : Expansion) : expansion.name ∈ expansion.names :=
  List.mem_map.mpr ⟨_, expansion.component.self_mem_preorder, expansion.name_component⟩

/-- Where all names are chosen, the names of the expanded component are its own and the chosen
ones. -/
theorem names_eq_chosen (expansion : Expansion) :
    expansion.names = expansion.name :: expansion.chosen .fresh := by
  have every (inside : List Expansion)
      (each : ∀ inner ∈ inside, inner.names = inner.name :: inner.chosen .fresh) :
      inside.flatMap names = chosenAll .fresh inside := by
    induction inside with
    | nil => rw [chosenAll, List.flatMap_nil]
    | cons head rest ih =>
        obtain ⟨here, later⟩ := List.forall_mem_cons.mp each
        rw [List.flatMap_cons, here, ih later, chosenAll]
        rfl
  induction expansion using induction with
  | plain written name inside each => rw [names_plain, every inside each, chosen]; rfl
  | imported written document copy inside copied each =>
      rw [names_imported, copied, every inside each, chosen]
      rfl

/-- The names of expanded components are those of all components that are written there and those
chosen in copies, if this is so for each of them. -/
theorem flatMap_names_perm_of {inside : List Expansion}
    (each : ∀ inner ∈ inside, inner.names.Perm (inner.preorder.map name ++ inner.chosen .keep)) :
    (inside.flatMap names).Perm ((preorderAll inside).map name ++ chosenAll .keep inside) := by
  induction inside with
  | nil => rw [preorderAll, chosenAll]; rfl
  | cons head rest ih =>
      obtain ⟨here, later⟩ := List.forall_mem_cons.mp each
      rw [List.flatMap_cons, preorderAll, chosenAll, List.map_append, List.nil_append]
      refine (here.append (ih later)).trans ?_
      rw [List.append_assoc, List.append_assoc]
      refine List.Perm.append_left _ ?_
      rw [← List.append_assoc, ← List.append_assoc]
      exact List.perm_append_comm.append_right _

/-- Where names are kept, the names of the expanded component are those of the components that are
written inside it and the ones chosen in copies. -/
theorem names_perm (expansion : Expansion) :
    expansion.names.Perm (expansion.preorder.map name ++ expansion.chosen .keep) := by
  induction expansion using induction with
  | plain written given inside each =>
      rw [names_plain, preorder, chosen, List.map_cons, List.cons_append]
      exact (flatMap_names_perm_of each).cons _
  | imported written document copy inside copied each =>
      rw [names_imported, names_eq_chosen, preorder, chosen, List.map_cons, List.cons_append,
        List.cons_append]
      refine List.Perm.cons _ (((flatMap_names_perm_of each).append_left _).trans ?_)
      rw [← List.append_assoc, ← List.append_assoc]
      exact List.perm_append_comm.append_right _

/-- What is written inside a component is expanded inside the expanded component. -/
theorem component_mem_preorder {expansion inner : Expansion}
    (membership : inner ∈ expansion.preorder) :
    inner.component ∈ expansion.component.preorder := by
  have every (inside : List Expansion)
      (each : ∀ child ∈ inside, inner ∈ child.preorder →
        inner.component ∈ child.component.preorder)
      (below : inner ∈ preorderAll inside) :
      inner.component ∈ inside.flatMap fun child => child.component.preorder := by
    rw [preorderAll_eq, List.mem_flatMap] at below
    obtain ⟨child, isChild, member⟩ := below
    exact List.mem_flatMap.mpr ⟨child, isChild, each child isChild member⟩
  induction expansion using induction with
  | plain written name inside each =>
      rw [preorder, List.mem_cons] at membership
      rcases membership with rfl | below
      · exact Component.self_mem_preorder _
      · rw [preorder_component_plain]
        exact List.mem_cons_of_mem _ (every inside each below)
  | imported written document copy inside _ each =>
      rw [preorder, List.mem_cons] at membership
      rcases membership with rfl | below
      · exact Component.self_mem_preorder _
      · rw [preorder_component_imported]
        exact List.mem_cons_of_mem _ (List.mem_append_right _ (every inside each below))

/-- Nothing is imported by an expanded component. -/
theorem source_eq_none (expansion : Expansion) :
    ∀ component ∈ expansion.component.preorder, component.source = none := by
  induction expansion using induction with
  | plain written name inside each =>
      rw [preorder_component_plain, List.forall_mem_cons]
      refine ⟨by rw [component], fun inner below => ?_⟩
      obtain ⟨child, isChild, member⟩ := List.mem_flatMap.mp below
      exact each child isChild inner member
  | imported written document copy inside copied each =>
      rw [Component.preorder_eq copy.component, List.forall_mem_cons] at copied
      rw [preorder_component_imported, List.forall_mem_cons]
      refine ⟨by rw [component]; exact copied.1, fun inner below => ?_⟩
      rcases List.mem_append.mp below with inCopy | inChild
      · exact copied.2 inner inCopy
      · obtain ⟨child, isChild, member⟩ := List.mem_flatMap.mp inChild
        exact each child isChild inner member

/-! ## Expansions by a library -/

/-- An expansion is made by a library: what is imported has been found there, and the children are
expanded in the order in which they are written. Where names are kept, the children have the names
that they are written with; in a copy every component may have a new one. -/
inductive IsMadeBy (library : Library) : Naming → Expansion → Prop
  | plain {naming : Naming} {written : Component} {name : String} {inside : List Expansion}
      (unimported : written.source = none)
      (children : inside.map Expansion.written = written.components)
      (kept : naming = .keep → ∀ inner ∈ inside, inner.name = inner.written.name)
      (each : ∀ inner ∈ inside, IsMadeBy library naming inner) :
      IsMadeBy library naming (.plain written name inside)
  | imported {naming : Naming} {written : Component} {document : Model} {copy : Expansion}
      {inside : List Expansion} {source : ImportSource}
      (imports : written.source = some source)
      (found : library.definition? source = some (document, copy.written))
      (copied : IsMadeBy library .fresh copy)
      (children : inside.map Expansion.written = written.components)
      (kept : naming = .keep → ∀ inner ∈ inside, inner.name = inner.written.name)
      (each : ∀ inner ∈ inside, IsMadeBy library naming inner) :
      IsMadeBy library naming (.imported written document copy inside)

namespace IsMadeBy

variable {library : Library} {naming : Naming} {expansion inner : Expansion}

theorem children (made : IsMadeBy library naming expansion) :
    expansion.inside.map written = expansion.written.components := by
  cases made <;> assumption

theorem kept (made : IsMadeBy library naming expansion) (keep : naming = .keep) :
    ∀ inner ∈ expansion.inside, inner.name = inner.written.name := by
  cases made with
  | plain _ _ kept => exact kept keep
  | imported _ _ _ _ kept => exact kept keep

theorem each (made : IsMadeBy library naming expansion) :
    ∀ inner ∈ expansion.inside, IsMadeBy library naming inner := by
  cases made <;> assumption

/-- The tree of expansions is the tree of components as it is written. -/
theorem map_written_preorder (made : IsMadeBy library naming expansion) :
    expansion.preorder.map written = expansion.written.preorder := by
  have every (inside : List Expansion)
      (each : ∀ inner ∈ inside, inner.preorder.map written = inner.written.preorder) :
      (preorderAll inside).map written = Component.preorderAll (inside.map written) := by
    rw [preorderAll_eq, Component.preorderAll_eq, List.map_flatMap, List.flatMap_map]
    exact List.flatMap_congr each
  induction made with
  | @plain _ written _ _ _ children _ _ ih =>
      rw [preorder_eq, List.map_cons, inside, every _ ih, children]
      exact written.preorder_eq.symm
  | @imported _ written _ _ _ _ _ _ _ children _ _ _ ih =>
      rw [preorder_eq, List.map_cons, inside, every _ ih, children]
      exact written.preorder_eq.symm

/-- All components that are written inside one are expanded by the library, under their names where
these are kept. -/
theorem of_mem_preorder (made : IsMadeBy library naming expansion)
    (membership : inner ∈ expansion.preorder) :
    IsMadeBy library naming inner ∧
      (naming = .keep → expansion.name = expansion.written.name →
        inner.name = inner.written.name) := by
  have every {inside : List Expansion} {naming : Naming}
      (kept : naming = .keep → ∀ child ∈ inside, child.name = child.written.name)
      (each : ∀ child ∈ inside, inner ∈ child.preorder → IsMadeBy library naming inner ∧
        (naming = .keep → child.name = child.written.name → inner.name = inner.written.name))
      (below : inner ∈ preorderAll inside) :
      IsMadeBy library naming inner ∧ (naming = .keep → inner.name = inner.written.name) := by
    rw [preorderAll_eq, List.mem_flatMap] at below
    obtain ⟨child, isChild, member⟩ := below
    obtain ⟨inner, named⟩ := each child isChild member
    exact ⟨inner, fun keep => named keep (kept keep child isChild)⟩
  induction made with
  | @plain naming written name inside unimported children kept each ih =>
      rw [preorder, List.mem_cons] at membership
      rcases membership with rfl | below
      · exact ⟨.plain unimported children kept each, fun _ named => named⟩
      · obtain ⟨made, named⟩ := every kept ih below
        exact ⟨made, fun keep _ => named keep⟩
  | @imported naming written document copy inside source imports found copied children kept each
      _ ih =>
      rw [preorder, List.mem_cons] at membership
      rcases membership with rfl | below
      · exact ⟨.imported imports found copied children kept each, fun _ named => named⟩
      · obtain ⟨made, named⟩ := every kept ih below
        exact ⟨made, fun keep _ => named keep⟩

end IsMadeBy

end Expansion

end ComponentModel
