import ComponentModel.Proofs.Imports.Expansion
import ComponentModel.Proofs.Numerals
import ComponentModel.Proofs.Validation
import Mathlib.Data.Nat.Find
import Mathlib.Data.Fintype.Card

/-!
# What flattening does

Every name that flattening chooses is new: the search for one always ends, since there are more
candidates than names in use. A flattened model comes with expansions of its components that the
library has made; the names in use and the connections that have been gathered are those of the
expansions.
-/

namespace ComponentModel

/-! ## Chosen names -/

namespace Flattening

/-- The candidates for a name differ. -/
theorem candidate_injective (name : String) : Function.Injective (candidate name) := by
  have longer (index : Nat) : name ++ "_" ++ Decimal.digitText index ≠ name := by
    intro same
    have lengths := congrArg String.length same
    rw [String.length_append, String.length_append] at lengths
    have underscore : "_".length = 1 := rfl
    omega
  intro one other same
  unfold candidate at same
  split at same <;> split at same
  case isTrue.isTrue first second => exact first.trans second.symm
  case isTrue.isFalse => exact absurd same.symm (longer _)
  case isFalse.isTrue => exact absurd same (longer _)
  case isFalse.isFalse =>
    have digits : Decimal.digitText (one + 1) = Decimal.digitText (other + 1) := by
      simpa [← String.toList_inj] using congrArg String.toList same
    exact Nat.succ_injective (Decimal.digitText_injective digits)

/-- One of the candidates that are tried is not in use. -/
theorem exists_free (state : Flattening) (name : String) :
    ∃ index < state.taken.length + 1, candidate name index ∉ state.taken := by
  by_contra none
  push Not at none
  have subset : (List.range (state.taken.length + 1)).map (candidate name) ⊆ state.taken := by
    intro chosen membership
    obtain ⟨index, inside, rfl⟩ := List.mem_map.mp membership
    exact none index (List.mem_range.mp inside)
  have nodup := List.nodup_range.map (candidate_injective name)
    (l := List.range (state.taken.length + 1))
  have bound := (nodup.subperm subset).length_le
  rw [List.length_map, List.length_range] at bound
  omega

/-- The chosen name is the first candidate that is not in use. -/
theorem unique_eq_candidate (state : Flattening) (name : String) :
    ∃ index, state.unique name = candidate name index ∧ candidate name index ∉ state.taken ∧
      ∀ earlier < index, candidate name earlier ∈ state.taken := by
  obtain ⟨index, inside, free, first⟩ : ∃ index, index < state.taken.length + 1 ∧
      candidate name index ∉ state.taken ∧ ∀ earlier < index, candidate name earlier ∈ state.taken := by
    classical
    have exists_ : ∃ index, candidate name index ∉ state.taken :=
      (state.exists_free name).imp fun _ => And.right
    obtain ⟨index, inside, free⟩ := state.exists_free name
    refine ⟨Nat.find exists_, (Nat.find_min' exists_ free).trans_lt inside, Nat.find_spec exists_,
      fun earlier before => ?_⟩
    exact not_not.mp (Nat.find_min exists_ before)
  refine ⟨index, ?_, free, first⟩
  have found : ((List.range (state.taken.length + 1)).map (candidate name)).find?
      (fun chosen => !state.taken.contains chosen) = some (candidate name index) := by
    rw [List.find?_map, List.find?_range_eq_some.mpr]
    · rfl
    · refine ⟨by simpa using free, List.mem_range.mpr inside, fun earlier before => ?_⟩
      simpa using first earlier before
  rw [unique]
  simp only [found, Option.getD_some]

/-- A chosen name has not been in use. -/
theorem unique_not_mem (state : Flattening) (name : String) :
    state.unique name ∉ state.taken := by
  obtain ⟨index, chosen, free, -⟩ := state.unique_eq_candidate name
  exact chosen ▸ free

/-! ## Gathering -/

/-- Units definitions with one more, unless there is one of its name. -/
def addDefinition (units : List UnitsDefinition) (definition : UnitsDefinition) :
    List UnitsDefinition :=
  if units.any fun other => other.name == definition.name then units else units ++ [definition]

/-- Units definitions with those of a document behind them, as far as their names are new. -/
def mergeUnits (units : List UnitsDefinition) (document : Model) : List UnitsDefinition :=
  document.units.foldl addDefinition units

theorem units_absorb (state : Flattening) (document : Model) (names : Renaming) :
    (state.absorb document names).units = mergeUnits state.units document := by
  have each (state : Flattening) (definition : UnitsDefinition) :
      (state.addUnits definition).units = addDefinition state.units definition := by
    unfold addUnits addDefinition
    split <;> rfl
  have every (definitions : List UnitsDefinition) (state : Flattening) :
      (definitions.foldl addUnits state).units = definitions.foldl addDefinition state.units := by
    induction definitions generalizing state with
    | nil => rfl
    | cons head rest ih => rw [List.foldl_cons, List.foldl_cons, ih, each]
  exact every document.units _

/-- What a step of flattening adds: names that were not in use, connections, and the units of the
documents that it has copied from. -/
structure Extends (state next : Flattening) (names : List String)
    (connections : List Connection) (documents : List Model) : Prop where
  taken : next.taken = names.reverse ++ state.taken
  connections : next.connections = state.connections ++ connections
  units : next.units = documents.foldl mergeUnits state.units
  nodup : state.taken.Nodup → next.taken.Nodup

namespace Extends

theorem refl (state : Flattening) : Extends state state [] [] [] :=
  ⟨rfl, (List.append_nil _).symm, rfl, id⟩

theorem trans {state middle next : Flattening} {names later : List String}
    {connections others : List Connection} {documents more : List Model}
    (first : Extends state middle names connections documents)
    (second : Extends middle next later others more) :
    Extends state next (names ++ later) (connections ++ others) (documents ++ more) where
  taken := by rw [second.taken, first.taken, List.reverse_append, List.append_assoc]
  connections := by rw [second.connections, first.connections, List.append_assoc]
  units := by rw [second.units, first.units, List.foldl_append]
  nodup := second.nodup ∘ first.nodup

theorem choose (state : Flattening) (name : String) :
    Extends state (state.take (state.unique name)) [state.unique name] [] [] where
  taken := rfl
  connections := (List.append_nil _).symm
  units := rfl
  nodup := List.nodup_cons.mpr ∘ And.intro (state.unique_not_mem name)

theorem absorb (state : Flattening) (document : Model) (names : Renaming) :
    Extends state (state.absorb document names) []
      (document.connections.filterMap (·.rename? names)) [document] := by
  have kept (definitions : List UnitsDefinition) (state : Flattening) :
      (definitions.foldl addUnits state).taken = state.taken ∧
        (definitions.foldl addUnits state).connections = state.connections := by
    induction definitions generalizing state with
    | nil => exact ⟨rfl, rfl⟩
    | cons head rest ih =>
        rw [List.foldl_cons, (ih _).1, (ih _).2]
        unfold addUnits
        split <;> exact ⟨rfl, rfl⟩
  obtain ⟨taken, connections⟩ := kept document.units
    { state with
      connections := state.connections ++ document.connections.filterMap (·.rename? names) }
  exact ⟨taken, connections, units_absorb state document names, fun nodup => taken.symm ▸ nodup⟩

end Extends

end Flattening

/-! ## Expansions of a run -/

open Flattening (Extends)

/-- The connections that a copy contributes: those of its document with both ends renamed. -/
def ImportInstance.contributed (made : ImportInstance) : List Connection :=
  made.document.connections.filterMap (·.rename? made.copy.newNames.reverse)

namespace Expansion

/-- The connections that all copies inside an expansion contribute. -/
def contributed (expansion : Expansion) : List Connection :=
  expansion.instances.flatMap ImportInstance.contributed

variable {library : Library} {importer : Importer} {naming : Naming}

/-- The documents of all copies inside an expansion. -/
def documents (expansion : Expansion) : List Model :=
  expansion.instances.map ImportInstance.document

/-- An importer makes the copies that a library has. -/
def IsImporter (library : Library) (importer : Importer) : Prop :=
  ∀ source name state copy next, importer source name state = .ok (copy, next) →
    ∃ document expansion, library.definition? source = some (document, expansion.written) ∧
      expansion.name = name ∧ expansion.component = copy ∧ expansion.IsMadeBy library .fresh ∧
      Extends state next (expansion.chosen .fresh)
        (expansion.contributed ++ (⟨document, expansion⟩ : ImportInstance).contributed)
        (expansion.documents ++ [document])

/-- What expanding a component gives, and what it adds to the new names and to what is gathered. -/
structure Records (library : Library) (naming : Naming) (written : Component) (newName : String)
    (names : Renaming) (state : Flattening) (result : Component × Renaming × Flattening)
    (expansion : Expansion) : Prop where
  written : expansion.written = written
  name : expansion.name = newName
  made : expansion.IsMadeBy library naming
  component : expansion.component = result.1
  names : result.2.1 = expansion.newNames.reverse ++ names
  extended : Extends state result.2.2 (expansion.chosen naming) expansion.contributed
    expansion.documents

/-- What expanding the components of a list gives. -/
structure RecordsAll (library : Library) (naming : Naming) (written : List Component)
    (names : Renaming) (state : Flattening) (result : List Component × Renaming × Flattening)
    (expansions : List Expansion) : Prop where
  written : expansions.map Expansion.written = written
  kept : naming = .keep → ∀ expansion ∈ expansions, expansion.name = expansion.written.name
  made : ∀ expansion ∈ expansions, expansion.IsMadeBy library naming
  components : expansions.map component = result.1
  names : result.2.1 = (expansions.flatMap newNames).reverse ++ names
  extended : Extends state result.2.2 (chosenAll naming expansions)
    (expansions.flatMap contributed) (expansions.flatMap documents)

theorem newNames_eq (expansion : Expansion) :
    expansion.newNames =
      (expansion.written.name, expansion.name) :: expansion.inside.flatMap newNames := by
  rw [newNames, preorder_eq, List.map_cons, preorderAll_eq, List.map_flatMap]
  rfl

theorem contributed_plain (written : Component) (name : String) (inside : List Expansion) :
    (plain written name inside).contributed = inside.flatMap contributed := by
  rw [contributed, instances, instancesAll_eq, List.flatMap_assoc]
  rfl

theorem contributed_imported (written : Component) (document : Model) (copy : Expansion)
    (inside : List Expansion) :
    (imported written document copy inside).contributed =
      copy.contributed ++ (⟨document, copy⟩ : ImportInstance).contributed ++
        inside.flatMap contributed := by
  rw [contributed, instances, instancesAll_eq, List.flatMap_append, List.flatMap_cons,
    List.flatMap_assoc, List.append_assoc]
  rfl

theorem documents_plain (written : Component) (name : String) (inside : List Expansion) :
    (plain written name inside).documents = inside.flatMap documents := by
  rw [documents, instances, instancesAll_eq, List.map_flatMap]
  rfl

theorem documents_imported (written : Component) (document : Model) (copy : Expansion)
    (inside : List Expansion) :
    (imported written document copy inside).documents =
      copy.documents ++ [document] ++ inside.flatMap documents := by
  rw [documents, instances, instancesAll_eq, List.map_append, List.map_cons, List.map_flatMap,
    List.append_assoc]
  rfl

/-- The new names of a component and of its children, once the component itself is recorded. -/
theorem reverse_newNames_append (expansion : Expansion) (names : Renaming) :
    expansion.newNames.reverse ++ names =
      (expansion.inside.flatMap newNames).reverse ++
        (expansion.written.name, expansion.name) :: names := by
  rw [newNames_eq, List.reverse_cons, List.append_assoc, List.singleton_append]

mutual

/-- Whatever expands has been recorded. -/
theorem exists_records (isImporter : IsImporter library importer) (naming : Naming)
    (newName : String) (written : Component) (names : Renaming) (state : Flattening)
    {result : Component × Renaming × Flattening}
    (done : expandAs importer naming newName written names state = .ok result) :
    ∃ expansion, Records library naming written newName names state result expansion := by
  match written with
  | .mk name declarations math components source =>
      rw [expandAs] at done
      obtain ⟨⟨expanded, between⟩, self, done⟩ := bind_eq_ok done
      obtain ⟨⟨children, newNames, last⟩, below, done⟩ := bind_eq_ok done
      obtain rfl := Except.ok.inj done
      obtain ⟨inside, recorded⟩ :=
        exists_recordsAll isImporter naming components _ between below
      cases source with
      | none =>
          obtain ⟨rfl, rfl⟩ := Prod.mk.inj (Except.ok.inj self)
          refine ⟨.plain (.mk name declarations math components none) newName inside, rfl, rfl,
            .plain rfl recorded.written recorded.kept recorded.made, ?_, ?_, ?_⟩
          · rw [component, components_eq, recorded.components]
            rfl
          · rw [recorded.names, reverse_newNames_append]
            rfl
          · rw [chosen, contributed_plain, documents_plain]
            exact recorded.extended
      | some source =>
          obtain ⟨document, copy, found, named, copied, made, extended⟩ :=
            isImporter source newName state expanded between self
          refine ⟨.imported (.mk name declarations math components (some source)) document copy
            inside, rfl, named,
            .imported rfl found made recorded.written recorded.kept recorded.made, ?_, ?_, ?_⟩
          · rw [component, components_eq, recorded.components, copied]
          · rw [recorded.names, reverse_newNames_append, ← named]
            rfl
          · rw [chosen, contributed_imported, documents_imported]
            exact extended.trans recorded.extended

/-- The components of a list are recorded one after the other. -/
theorem exists_recordsAll (isImporter : IsImporter library importer) (naming : Naming)
    (written : List Component) (names : Renaming) (state : Flattening)
    {result : List Component × Renaming × Flattening}
    (done : expandAll importer naming written names state = .ok result) :
    ∃ expansions, RecordsAll library naming written names state result expansions := by
  match written with
  | [] =>
      rw [expandAll] at done
      obtain rfl := Except.ok.inj done
      exact ⟨[], rfl, by simp, by simp, rfl, by simp, by rw [chosenAll]; exact .refl state⟩
  | head :: rest =>
      simp only [expandAll] at done
      -- The name of the first component is chosen before it is expanded.
      obtain ⟨newName, between, chosen, self, done⟩ :
          ∃ newName between, Extends state between
              (match naming with | .keep => [] | .fresh => [newName]) [] [] ∧
            (naming = .keep → newName = head.name) ∧
            (do
              let (expanded, names, state) ← expandAs importer naming newName head names between
              let (others, names, state) ← expandAll importer naming rest names state
              return (expanded :: others, names, state)) = .ok result := by
        cases naming with
        | keep => exact ⟨head.name, state, .refl state, fun _ => rfl, done⟩
        | fresh =>
            exact ⟨state.unique head.name, state.take (state.unique head.name),
              .choose state head.name, by simp, done⟩
      obtain ⟨⟨expanded, namesBetween, middle⟩, here, done⟩ := bind_eq_ok done
      obtain ⟨⟨others, newNames, last⟩, later, done⟩ := bind_eq_ok done
      obtain rfl := Except.ok.inj done
      obtain ⟨expansion, recorded⟩ :=
        exists_records isImporter naming newName head names between here
      obtain ⟨expansions, recordedAll⟩ :=
        exists_recordsAll isImporter naming rest namesBetween middle later
      refine ⟨expansion :: expansions, ?_, ?_, ?_, ?_, ?_, ?_⟩
      · rw [List.map_cons, recorded.written, recordedAll.written]
      · intro keep
        rw [List.forall_mem_cons]
        exact ⟨by rw [recorded.name, recorded.written, self keep], recordedAll.kept keep⟩
      · exact List.forall_mem_cons.mpr ⟨recorded.made, recordedAll.made⟩
      · rw [List.map_cons, recorded.component, recordedAll.components]
      · have before : namesBetween = expansion.newNames.reverse ++ names := recorded.names
        rw [recordedAll.names, before, List.flatMap_cons, List.reverse_append, List.append_assoc]
      · have extended := (chosen.trans recorded.extended).trans recordedAll.extended
        rw [← recorded.name] at extended
        unfold chosenAll
        exact extended

end

/-- Importing from a library makes copies of what the library has. -/
theorem isImporter_importFrom (library : Library) (depth : Nat) (chain : List String) :
    IsImporter library (library.importFrom depth chain) := by
  induction depth generalizing chain with
  | zero =>
      intro source name state copy next done
      cases done
  | succ depth ih =>
      intro source name state copy next done
      rw [Library.importFrom] at done
      split at done
      case isTrue => cases done
      case isFalse =>
        cases foundDocument : library.get? source.url with
        | none =>
            rw [foundDocument] at done
            cases done
        | some document =>
            rw [foundDocument] at done
            cases foundComponent : document.findComponent source.component with
            | none =>
                simp only [foundComponent] at done
                cases done
            | some definition =>
                simp only [foundComponent] at done
                obtain ⟨⟨expanded, names, last⟩, expands, done⟩ := bind_eq_ok done
                obtain ⟨rfl, rfl⟩ := Prod.mk.inj (Except.ok.inj done)
                obtain ⟨expansion, recorded⟩ := exists_records (ih _) .fresh name definition []
                  state expands
                refine ⟨document, expansion, ?_, recorded.name, recorded.component, recorded.made,
                  ?_⟩
                · rw [Library.definition?_eq_some, recorded.written]
                  exact ⟨foundDocument, foundComponent⟩
                · have names : names = expansion.newNames.reverse := by
                    simpa using recorded.names
                  rw [names]
                  have extended := recorded.extended.trans
                    (.absorb last document expansion.newNames.reverse)
                  rwa [List.append_nil] at extended

end Expansion

/-! ## Expansions of a model -/

mutual

/-- A tree in which nothing is imported is expanded to itself where names are kept. -/
theorem expandAs_of_unimported (importer : Importer) (written : Component) (names : Renaming)
    (state : Flattening) (unimported : ∀ inner ∈ written.preorder, inner.source = none) :
    ∃ later, expandAs importer .keep written.name written names state =
      .ok (written, later, state) := by
  match written with
  | .mk name declarations math components source =>
      rw [Component.preorder, List.forall_mem_cons] at unimported
      obtain ⟨here, below⟩ := unimported
      obtain rfl : source = none := here
      obtain ⟨later, expands⟩ :=
        expandAll_of_unimported importer components ((name, name) :: names) state below
      refine ⟨later, ?_⟩
      rw [expandAs]
      simp only [expandSelf, bind, Except.bind, expands, pure, Except.pure, List.nil_append]

theorem expandAll_of_unimported (importer : Importer) (written : List Component)
    (names : Renaming) (state : Flattening)
    (unimported : ∀ inner ∈ Component.preorderAll written, inner.source = none) :
    ∃ later, expandAll importer .keep written names state = .ok (written, later, state) := by
  match written with
  | [] => exact ⟨names, by rw [expandAll]⟩
  | head :: rest =>
      rw [Component.preorderAll, List.forall_mem_append] at unimported
      obtain ⟨here, below⟩ := unimported
      obtain ⟨between, expands⟩ := expandAs_of_unimported importer head names state here
      obtain ⟨later, expandsRest⟩ := expandAll_of_unimported importer rest between state below
      refine ⟨later, ?_⟩
      simp only [expandAll, bind, Except.bind, expands, expandsRest, pure, Except.pure]

end

/-- Where every name is kept, connections between names that are known stay, and no others. -/
theorem Connection.filterMap_rename?_of_kept {names : Renaming}
    (kept : ∀ entry ∈ names, entry.2 = entry.1) (connections : List Connection) :
    connections.filterMap (·.rename? names) = connections.filter fun connection =>
      (names.map Prod.fst).contains connection.first &&
        (names.map Prod.fst).contains connection.second := by
  have found (name : String) :
      names.lookup name = if (names.map Prod.fst).contains name then some name else none := by
    have known : (names.lookup name).isSome = (names.map Prod.fst).contains name := by
      rw [Bool.eq_iff_iff, List.lookup_isSome_iff, List.contains_iff_mem, List.mem_map]
      simp only [beq_iff_eq]
      exact exists_congr fun _ => and_congr_right fun _ => eq_comm
    rw [← known]
    cases named : names.lookup name with
    | none => rfl
    | some newName =>
        obtain ⟨before, after, split, -⟩ := List.lookup_eq_some_iff.mp named
        exact congrArg some
          (kept (name, newName) (split ▸ List.mem_append_right _ List.mem_cons_self))
  rw [← List.filterMap_eq_filter]
  refine List.filterMap_congr fun connection _ => ?_
  rw [rename?, found, found, Option.guard]
  cases (names.map Prod.fst).contains connection.first <;>
    cases (names.map Prod.fst).contains connection.second <;> rfl

/-- Whether both ends of a connection name components of a model. -/
def Model.joins (model : Model) (connection : Connection) : Bool :=
  (model.findComponent connection.first).isSome && (model.findComponent connection.second).isSome

/-- The connections of a model that are there when it has been flattened. A model that imports
nothing keeps all of them. -/
def Model.ownConnections (model : Model) : List Connection :=
  if model.hasImports then model.connections.filter model.joins else model.connections

/-- A flattened model is made of expansions by the library, one for each component of the model.
Its connections are those of the model and those of all copies. -/
structure Library.Unfolds (library : Library) (model flat : Model)
    (expansions : List Expansion) : Prop where
  written : expansions.map Expansion.written = model.components
  kept : ∀ expansion ∈ expansions, expansion.name = expansion.written.name
  made : ∀ expansion ∈ expansions, expansion.IsMadeBy library .keep
  components : expansions.map Expansion.component = flat.components
  nodup : (model.preorder.map Component.name).Nodup →
    ((Expansion.chosenAll .keep expansions).reverse ++ model.preorder.map Component.name).Nodup
  connections : ∃ own, own.Sublist model.connections ∧
    flat.connections = own ++ expansions.flatMap Expansion.contributed

namespace Expansion

/-- Below kept names all names are kept. -/
theorem IsMadeBy.newNames_kept {library : Library} {expansions : List Expansion}
    (made : ∀ expansion ∈ expansions, expansion.IsMadeBy library .keep)
    (kept : ∀ expansion ∈ expansions, expansion.name = expansion.written.name) :
    ∀ entry ∈ expansions.flatMap newNames, entry.2 = entry.1 := by
  intro entry membership
  obtain ⟨expansion, isTop, member⟩ := List.mem_flatMap.mp membership
  obtain ⟨inner, below, rfl⟩ := List.mem_map.mp member
  exact ((made expansion isTop).of_mem_preorder below).2 rfl (kept expansion isTop)

end Expansion

/-- The components that are written in a model are those of its expansions. -/
theorem Expansion.IsMadeBy.keys_newNames {library : Library} {expansions : List Expansion}
    (made : ∀ expansion ∈ expansions, expansion.IsMadeBy library .keep) :
    (expansions.flatMap newNames).map Prod.fst =
      (Component.preorderAll (expansions.map written)).map Component.name := by
  rw [Component.preorderAll_eq, List.map_flatMap, List.map_flatMap, List.flatMap_map]
  refine List.flatMap_congr fun expansion isTop => ?_
  rw [← (made expansion isTop).map_written_preorder, newNames, List.map_map, List.map_map]
  rfl

/-- Whatever is flattened is made of expansions. Its units are those of the model and of the
documents of all copies, its connections the own ones of the model and those of all copies. -/
theorem Library.flatten_unfolds {library : Library} {model flat : Model}
    (flattened : library.flatten model = .ok flat) :
    ∃ expansions, library.Unfolds model flat expansions ∧
      flat.units = (expansions.flatMap Expansion.documents).foldl Flattening.mergeUnits model.units ∧
      flat.connections = model.ownConnections ++ expansions.flatMap Expansion.contributed := by
  have isImporter := Expansion.isImporter_importFrom library (library.componentCount + 1) []
  rw [Library.flatten] at flattened
  split at flattened
  case isTrue unimported =>
    obtain rfl := Except.ok.inj flattened
    -- Without imports there is nothing to expand; the run that is left out has no effect.
    have nothing : ∀ inner ∈ Component.preorderAll model.components, inner.source = none := by
      simpa [Model.hasImports, Model.preorder, Component.isImport] using unimported
    obtain ⟨later, expands⟩ := expandAll_of_unimported
      (library.importFrom (library.componentCount + 1) []) model.components []
      ⟨model.preorder.map Component.name, [], model.units⟩ nothing
    obtain ⟨expansions, recorded⟩ := Expansion.exists_recordsAll isImporter .keep _ _ _ expands
    have own : model.ownConnections = model.connections := by
      rw [Model.ownConnections, if_neg (by simpa using unimported)]
    have gathered : [] = [] ++ expansions.flatMap Expansion.contributed :=
      recorded.extended.connections
    rw [List.nil_append] at gathered
    have all : model.connections =
        model.ownConnections ++ expansions.flatMap Expansion.contributed := by
      rw [own, ← gathered, List.append_nil]
    refine ⟨expansions, ⟨recorded.written, recorded.kept rfl, recorded.made, recorded.components,
      ?_, model.ownConnections, own ▸ .refl _, all⟩, recorded.extended.units, all⟩
    rw [← recorded.extended.taken]
    exact recorded.extended.nodup
  case isFalse imported =>
    obtain ⟨⟨components, names, last⟩, expands, flattened⟩ := bind_eq_ok flattened
    obtain rfl := Except.ok.inj flattened
    obtain ⟨expansions, recorded⟩ := Expansion.exists_recordsAll isImporter .keep _ _ _ expands
    have named : names = (expansions.flatMap Expansion.newNames).reverse := by
      simpa using recorded.names
    have keptNames : ∀ entry ∈ names, entry.2 = entry.1 := by
      intro entry membership
      rw [named, List.mem_reverse] at membership
      exact Expansion.IsMadeBy.newNames_kept recorded.made (recorded.kept rfl) entry membership
    have known (name : String) :
        (names.map Prod.fst).contains name = (model.findComponent name).isSome := by
      rw [named, List.map_reverse, Expansion.IsMadeBy.keys_newNames recorded.made,
        recorded.written, Bool.eq_iff_iff, List.contains_iff_mem, List.mem_reverse,
        Model.findComponent, List.find?_isSome, List.mem_map]
      simp only [beq_iff_eq]
      rfl
    have own : model.connections.filterMap (·.rename? names) = model.ownConnections := by
      rw [Connection.filterMap_rename?_of_kept keptNames, Model.ownConnections,
        if_pos (by simpa using imported)]
      exact List.filter_congr fun connection _ => by rw [known, known, Model.joins]
    have gathered : last.connections = [] ++ expansions.flatMap Expansion.contributed :=
      recorded.extended.connections
    rw [List.nil_append] at gathered
    have isOwn : model.ownConnections.Sublist model.connections := by
      rw [Model.ownConnections]
      split
      · exact List.filter_sublist
      · exact .refl _
    refine ⟨expansions, ⟨recorded.written, recorded.kept rfl, recorded.made, recorded.components,
      ?_, model.ownConnections, isOwn, ?_⟩, recorded.extended.units, ?_⟩
    · rw [← recorded.extended.taken]
      exact recorded.extended.nodup
    · rw [own, gathered]
    · rw [own, gathered]

/-- Whatever is flattened is made of expansions. -/
theorem Library.exists_unfolding {library : Library} {model flat : Model}
    (flattened : library.flatten model = .ok flat) :
    ∃ expansions, library.Unfolds model flat expansions :=
  (Library.flatten_unfolds flattened).imp fun _ => And.left

end ComponentModel
