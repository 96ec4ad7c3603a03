import ComponentModel.Proofs.Imports.Instances

/-!
# Connections of a flattened model

A model that imports nothing stays as it is, with all its connections. From a model that imports
something flattening takes those connections out of which an end names no component of the model,
and what the copies contribute has both ends in the flattened model. So whatever such a model was
connected to, a validation of the flattened one never finds a component undefined.
-/

namespace ComponentModel

section

variable {library : Library} {model flat : Model} {expansions : List Expansion}

/-- Both ends of what a copy contributes are components of the copy. -/
theorem ImportInstance.ends_mem_names {made : ImportInstance} {connection : Connection}
    (contributed : connection ∈ made.contributed) :
    connection.first ∈ made.names ∧ connection.second ∈ made.names := by
  have inside {name newName : String}
      (renamed : made.copy.newNames.reverse.lookup name = some newName) : newName ∈ made.names := by
    obtain ⟨before, after, split, -⟩ := List.lookup_eq_some_iff.mp renamed
    have listed : (name, newName) ∈ made.copy.newNames.reverse :=
      split ▸ List.mem_append_right _ List.mem_cons_self
    obtain ⟨inner, isInner, same⟩ := List.mem_map.mp (List.mem_reverse.mp listed)
    obtain ⟨-, rfl⟩ := Prod.mk.inj same
    exact List.mem_map.mpr
      ⟨inner.component, Expansion.component_mem_preorder isInner, inner.name_component⟩
  obtain ⟨written, -, renamed⟩ := List.mem_filterMap.mp contributed
  simp only [Connection.rename?, Option.bind_eq_bind, Option.bind_eq_some_iff, Option.pure_def,
    Option.some.injEq] at renamed
  obtain ⟨first, renamedFirst, second, renamedSecond, rfl⟩ := renamed
  exact ⟨inside renamedFirst, inside renamedSecond⟩

theorem Model.isSome_findComponent {name : String} :
    (model.findComponent name).isSome ↔ name ∈ model.preorder.map Component.name := by
  rw [findComponent, List.find?_isSome, List.mem_map]
  simp only [beq_iff_eq]

theorem Model.joins_iff {connection : Connection} :
    model.joins connection ↔ connection.first ∈ model.preorder.map Component.name ∧
      connection.second ∈ model.preorder.map Component.name := by
  rw [joins, Bool.and_eq_true, isSome_findComponent, isSome_findComponent]

namespace Library.Unfolds

/-- What the copies contribute joins components of the flattened model. -/
theorem joins_of_contributed (unfolds : library.Unfolds model flat expansions)
    {connection : Connection} (contributed : connection ∈ expansions.flatMap Expansion.contributed) :
    flat.joins connection := by
  obtain ⟨expansion, isTop, contributed⟩ := List.mem_flatMap.mp contributed
  obtain ⟨made, isMade, contributed⟩ := List.mem_flatMap.mp contributed
  have inFlat {name : String} (inCopy : name ∈ made.names) :
      name ∈ flat.preorder.map Component.name := by
    rw [unfolds.names_eq]
    exact List.mem_flatMap.mpr ⟨expansion, isTop, Expansion.names_copy_subset isMade inCopy⟩
  obtain ⟨first, second⟩ := ImportInstance.ends_mem_names contributed
  exact Model.joins_iff.mpr ⟨inFlat first, inFlat second⟩

/-- What joins components of the model joins components of the flattened model. -/
theorem joins_of_joins (unfolds : library.Unfolds model flat expansions) {connection : Connection}
    (joins : model.joins connection) : flat.joins connection := by
  have kept {name : String} (inModel : name ∈ model.preorder.map Component.name) :
      name ∈ flat.preorder.map Component.name :=
    unfolds.names_perm.mem_iff.mpr (List.mem_append_left _ inModel)
  obtain ⟨first, second⟩ := Model.joins_iff.mp joins
  exact Model.joins_iff.mpr ⟨kept first, kept second⟩

end Library.Unfolds

/-- The own connections of a model are all of its connections, unless it imports something and one
of them has an open end. -/
theorem Model.ownConnections_eq_iff :
    model.ownConnections = model.connections ↔
      (model.hasImports → ∀ connection ∈ model.connections, model.joins connection) := by
  rw [ownConnections]
  split
  case isTrue imports => simp [imports, List.filter_eq_self]
  case isFalse => simp_all

/-- A flattened model begins with the own connections of the model, in their order, and goes on with
those of its copies. Without imports nothing changes; with imports the connections that have an open
end are gone, and no validation misses a component. -/
theorem Library.flatten_own_connections (flattened : library.flatten model = .ok flat) :
    (∃ expansions, library.Unfolds model flat expansions ∧ flat.connections =
      model.ownConnections ++
        (Expansion.instancesAll expansions).flatMap ImportInstance.contributed) ∧
      (model.ownConnections = model.connections ↔
        (model.hasImports → ∀ connection ∈ model.connections, model.joins connection)) ∧
      (model.hasImports = false → flat = model) ∧
      (model.hasImports → (∀ connection ∈ flat.connections, flat.joins connection) ∧
        ∀ strict word first second,
          flat.validate strict ≠ .error (.undefinedComponent word first second)) := by
  obtain ⟨expansions, unfolds, -, connections⟩ := Library.flatten_unfolds flattened
  refine ⟨⟨expansions, unfolds, ?_⟩, Model.ownConnections_eq_iff, fun unimported => ?_,
    fun imports => ?_⟩
  · rw [connections, Expansion.instancesAll_eq, List.flatMap_assoc]
    rfl
  · rw [Library.flatten, unimported] at flattened
    exact (Except.ok.inj flattened).symm
  · have joined : ∀ connection ∈ flat.connections, flat.joins connection := by
      rw [connections, Model.ownConnections, if_pos imports, List.forall_mem_append]
      exact ⟨fun connection isOwn => unfolds.joins_of_joins (List.mem_filter.mp isOwn).2,
        fun connection contributed => unfolds.joins_of_contributed contributed⟩
    refine ⟨joined, fun strict word first second failed => ?_⟩
    obtain ⟨connection, membership, missing⟩ := Validation.exists_open_end failed
    have both := joined connection membership
    rw [Model.joins, Bool.and_eq_true] at both
    rcases missing with missing | missing
    · simp [missing] at both
    · simp [missing] at both

end

/-! ## An electrode that is not there -/

/-- A cell with an imported membrane, connected to an electrode that the model does not have. -/
def clampedCell : Model where
  schema := currentSchema
  name := "clamped_cell"
  units := []
  components := [⟨"cell", [], none, [], some ⟨"membrane.json", "membrane"⟩⟩]
  connections := [⟨"cell", "electrode", [⟨"V", "V"⟩]⟩]

/-- The same cell with its membrane written out. -/
def writtenCell : Model :=
  { clampedCell with
    components := [⟨"cell", [⟨"V", "volt", none, some .publicAndPrivate⟩], none, [], none⟩] }

def membraneLibrary : Library :=
  ⟨[("membrane.json", membraneDocument)]⟩

theorem clampedCell_keeps_no_open_end :
    ∃ flat, membraneLibrary.flatten clampedCell = .ok flat ∧ clampedCell.hasImports ∧
      ∀ strict word first second,
        flat.validate strict ≠ .error (.undefinedComponent word first second) := by
  have flattened := (rfl : membraneLibrary.flatten clampedCell = _)
  obtain ⟨-, -, -, importing⟩ := Library.flatten_own_connections flattened
  exact ⟨_, rfl, rfl, (importing rfl).2⟩

/-- The electrode is missed where the membrane is written out. Where it is imported, the connection
to the electrode is gone and the flattened model is accepted. -/
theorem clampedCell_accepted :
    writtenCell.validate false =
        .error (.undefinedComponent "electrode" "cell" "electrode") ∧
      ∃ flat, membraneLibrary.flatten clampedCell = .ok flat ∧
        ⟨"cell", "electrode", [⟨"V", "V"⟩]⟩ ∈ clampedCell.connections ∧
        ⟨"cell", "electrode", [⟨"V", "V"⟩]⟩ ∉ flat.connections ∧
        flat.findComponent "electrode" = none ∧ flat.validate false = .ok () := by
  refine ⟨rfl, _, rfl, List.mem_cons_self, by decide +kernel, rfl, rfl⟩

end ComponentModel
