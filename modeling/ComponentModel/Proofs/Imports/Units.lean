import ComponentModel.Proofs.Imports.Instances
import ComponentModel.Proofs.Units.Meaning

/-!
# Units of a flattened model

Flattening copies declarations with the names of their units, and puts the units definitions of all
documents behind those of the model as far as their names are new. A name keeps its meaning where
the definitions that are found that way, for it and for all names it is built from, are the ones
that count in its own document.
-/

namespace ComponentModel

open Relation (ReflTransGen)
open ComponentModel.Units (Denotes RefersTo Registry effective?)

/-! ## Which definition counts -/

/-- The definition of a name in a flattened model: the one that counts in the model, or the first
one among the documents. -/
def Model.mergedUnits? (model : Model) (documents : List Model) (name : String) :
    Option UnitsDefinition :=
  (effective? model.units name).or (documents.findSome? fun document => document.findUnits name)

namespace Flattening

/-- A definition that is added counts where there has been none. -/
theorem effective?_addDefinition (units : List UnitsDefinition) (definition : UnitsDefinition)
    (name : String) :
    effective? (addDefinition units definition) name =
      (effective? units name).or (if definition.name == name then some definition else none) := by
  have present : units.any (fun other => other.name == definition.name) =
      (effective? units definition.name).isSome := by
    rw [Bool.eq_iff_iff, Units.isSome_effective?]
    simp
  unfold addDefinition
  rw [present]
  split
  case isTrue known =>
    split
    case isTrue same =>
      rw [eq_of_beq same] at known
      rw [Option.or_of_isSome known]
    case isFalse => rw [Option.or_none]
  case isFalse unknown =>
    have appended : effective? (units ++ [definition]) name =
        (if definition.name == name then some definition else none).or (effective? units name) := by
      rw [effective?, List.reverse_append, List.reverse_singleton, List.singleton_append,
        List.find?_cons]
      cases definition.name == name <;> rfl
    rw [appended]
    split
    case isTrue same =>
      rw [Option.not_isSome_iff_eq_none, eq_of_beq same] at unknown
      rw [unknown]
      rfl
    case isFalse => rw [Option.none_or, Option.or_none]

/-- The first definition of a name counts among those that are added. -/
theorem effective?_foldl_addDefinition (definitions units : List UnitsDefinition) (name : String) :
    effective? (definitions.foldl addDefinition units) name =
      (effective? units name).or (definitions.find? fun other => other.name == name) := by
  induction definitions generalizing units with
  | nil => rw [List.foldl_nil, List.find?_nil, Option.or_none]
  | cons definition rest ih =>
      rw [List.foldl_cons, ih, effective?_addDefinition, Option.or_assoc, List.find?_cons]
      cases definition.name == name <;> rfl

/-- Merged units have the definition of a name that comes first. -/
theorem effective?_foldl_mergeUnits (model : Model) (documents : List Model) (name : String) :
    effective? (documents.foldl mergeUnits model.units) name = model.mergedUnits? documents name := by
  have every (units : List UnitsDefinition) :
      effective? (documents.foldl mergeUnits units) name =
        (effective? units name).or (documents.findSome? fun document => document.findUnits name) := by
    induction documents generalizing units with
    | nil => rw [List.foldl_nil, List.findSome?_nil, Option.or_none]
    | cons document rest ih =>
        rw [List.foldl_cons, ih, mergeUnits, effective?_foldl_addDefinition, Option.or_assoc,
          List.findSome?_cons, Model.findUnits]
        cases document.units.find? fun other => other.name == name <;> rfl
  exact every model.units

/-- Every merged definition is one of the model or of a document. -/
theorem mem_foldl_mergeUnits {model : Model} {documents : List Model}
    {definition : UnitsDefinition}
    (membership : definition ∈ documents.foldl mergeUnits model.units) :
    ∃ document ∈ model :: documents, definition ∈ document.units := by
  have added {units : List UnitsDefinition} {other : UnitsDefinition}
      (membership : definition ∈ addDefinition units other) :
      definition ∈ units ∨ definition = other := by
    unfold addDefinition at membership
    split at membership
    · exact .inl membership
    · simpa using membership
  have merged {definitions units : List UnitsDefinition}
      (membership : definition ∈ definitions.foldl addDefinition units) :
      definition ∈ units ∨ definition ∈ definitions := by
    induction definitions generalizing units with
    | nil => exact .inl membership
    | cons other rest ih =>
        rcases ih membership with before | later
        · exact (added before).imp_right fun same => List.mem_cons.mpr (.inl same)
        · exact .inr (List.mem_cons_of_mem _ later)
  induction documents using List.reverseRecOn with
  | nil => exact ⟨model, List.mem_cons_self, membership⟩
  | append_singleton documents document ih =>
      rw [List.foldl_append] at membership
      rcases merged membership with before | here
      · obtain ⟨other, isOther, isDefined⟩ := ih before
        exact ⟨other, List.cons_subset_cons _ (List.subset_append_left _ _) isOther, isDefined⟩
      · exact ⟨document, by simp, here⟩

end Flattening

/-! ## Where components come from -/

/-- A component as a document has it, and the name that it gets. -/
structure Origin where
  document : Model
  written : Component
  name : String

/-- What a component of a flattened model has from its origin. -/
structure Origin.Becomes (origin : Origin) (component : Component) : Prop where
  name : component.name = origin.name
  declarations : component.declarations = origin.written.declarations
  math : component.math = origin.written.math

/-- An origin is written out in one of some documents. -/
structure Origin.IsFrom (documents : List Model) (origin : Origin) : Prop where
  document : origin.document ∈ documents
  written : origin.written ∈ origin.document.preorder
  unimported : origin.written.source = none

theorem Origin.IsFrom.mono {documents others : List Model} {origin : Origin}
    (isFrom : origin.IsFrom documents) (subset : documents ⊆ others) : origin.IsFrom others :=
  { isFrom with document := subset isFrom.document }

namespace Expansion

mutual

/-- The origins of an expanded component that is written in a document, and of all components
inside it. -/
def origins (document : Model) : Expansion → List Origin
  | plain written name inside => ⟨document, written, name⟩ :: originsAll document inside
  | imported _ source copy inside => copy.origins source ++ originsAll document inside

/-- The origins of the expanded components of a list. -/
def originsAll (document : Model) : List Expansion → List Origin
  | [] => []
  | expansion :: rest => expansion.origins document ++ originsAll document rest

end

theorem originsAll_eq (document : Model) (expansions : List Expansion) :
    originsAll document expansions = expansions.flatMap (origins document) := by
  induction expansions with
  | nil => rw [originsAll, List.flatMap_nil]
  | cons head rest ih => rw [originsAll, ih, List.flatMap_cons]

theorem becomesAll_of {document : Model} {expansions : List Expansion}
    (each : ∀ expansion ∈ expansions,
      List.Forall₂ Origin.Becomes (expansion.origins document) expansion.component.preorder) :
    List.Forall₂ Origin.Becomes (originsAll document expansions)
      (expansions.flatMap fun expansion => expansion.component.preorder) := by
  rw [originsAll_eq]
  induction expansions with
  | nil => exact .nil
  | cons head rest ih =>
      obtain ⟨here, later⟩ := List.forall_mem_cons.mp each
      exact List.rel_append here (ih later)

/-- The components of an expanded tree are what its origins become, one by one. -/
theorem becomes (expansion : Expansion) (document : Model) :
    List.Forall₂ Origin.Becomes (expansion.origins document) expansion.component.preorder := by
  induction expansion using induction generalizing document with
  | plain written name inside each =>
      rw [origins, preorder_component_plain]
      refine .cons ⟨name_component _, ?_, ?_⟩ (becomesAll_of fun inner isChild => each inner isChild _)
      · rw [component]
      · rw [component]
  | imported written source copy inside copied each =>
      have top := copied source
      rw [Component.preorder_eq] at top
      obtain ⟨origin, rest, becomes, below, split⟩ := List.forall₂_cons_right_iff.mp top
      rw [origins, split, preorder_component_imported, List.cons_append]
      refine .cons ⟨?_, ?_, ?_⟩
        (List.rel_append below (becomesAll_of fun inner isChild => each inner isChild _))
      · rw [name_component, ← becomes.name, name_component]
        rfl
      · rw [component, ← becomes.declarations]
      · rw [component, ← becomes.math]

/-- Children are written in the document in which their parent is. -/
theorem mem_preorder_of_child {document : Model} {written : Component} {inside : List Expansion}
    {inner : Expansion} (children : inside.map Expansion.written = written.components)
    (isWritten : written ∈ document.preorder) (isChild : inner ∈ inside) :
    inner.written ∈ document.preorder := by
  refine (Component.preorderAll_sublist isWritten).subset ?_
  rw [Component.preorder_eq, ← children, Component.preorderAll_eq, List.flatMap_map]
  exact List.mem_cons_of_mem _
    (List.mem_flatMap.mpr ⟨inner, isChild, Component.self_mem_preorder _⟩)

/-- The origins of an expanded tree are written out in the document of the tree and in those that
have been copied from. -/
theorem IsMadeBy.isFrom {library : Library} {naming : Naming} {expansion : Expansion}
    {document : Model} {origin : Origin} (made : expansion.IsMadeBy library naming)
    (isWritten : expansion.written ∈ document.preorder)
    (membership : origin ∈ expansion.origins document) :
    origin.IsFrom (document :: expansion.documents) := by
  have every {written : Component} {inside : List Expansion} {document : Model}
      (children : inside.map Expansion.written = written.components)
      (isWritten : written ∈ document.preorder)
      (each : ∀ inner ∈ inside, inner.written ∈ document.preorder →
        origin ∈ inner.origins document → origin.IsFrom (document :: inner.documents))
      (membership : origin ∈ originsAll document inside) :
      origin.IsFrom (document :: inside.flatMap documents) := by
    rw [originsAll_eq, List.mem_flatMap] at membership
    obtain ⟨inner, isChild, member⟩ := membership
    refine (each inner isChild (mem_preorder_of_child children isWritten isChild) member).mono ?_
    exact List.cons_subset_cons _ fun _ isSource => List.mem_flatMap.mpr ⟨inner, isChild, isSource⟩
  induction made generalizing document with
  | plain unimported children _ _ ih =>
      rw [origins, List.mem_cons] at membership
      rw [documents_plain]
      rcases membership with rfl | below
      · exact ⟨List.mem_cons_self, isWritten, unimported⟩
      · exact every children isWritten (fun inner isChild => ih inner isChild) below
  | imported _ found _ children _ _ copied ih =>
      rw [origins, List.mem_append] at membership
      rw [documents_imported]
      rcases membership with inCopy | below
      · have isDefined := List.mem_of_find?_eq_some (Library.definition?_eq_some.mp found).2
        refine (copied isDefined inCopy).mono fun source isSource => ?_
        simp only [List.mem_cons, List.mem_append] at isSource ⊢
        rcases isSource with rfl | deeper
        · exact .inr (.inl (.inr (.inl rfl)))
        · exact .inr (.inl (.inl deeper))
      · refine (every children isWritten (fun inner isChild => ih inner isChild) below).mono ?_
        exact List.cons_subset_cons _ (List.subset_append_right _ _)

end Expansion

/-! ## Meanings that are kept -/

section

variable {library : Library} {model flat document : Model} {documents : List Model}
  {expansions : List Expansion}

/-- A name keeps its meaning when documents are merged with a model: for all names that it is built
from, the definitions that are found then are those that count in its own document. -/
def Model.Keeps (model : Model) (documents : List Model) (document : Model) (name : String) : Prop :=
  ∀ inner, ReflTransGen (RefersTo document.units) name inner →
    model.mergedUnits? documents inner = effective? document.units inner

/-- It is enough to compare the definitions of some names that refer to no others. -/
theorem Model.keeps_of_closed {names : List String}
    (closed : ∀ name ∈ names, ∀ definition, effective? document.units name = some definition →
      ∀ term ∈ definition.units, term.reference ∈ names)
    (same : ∀ name ∈ names, model.mergedUnits? documents name = effective? document.units name)
    {name : String} (isNamed : name ∈ names) : model.Keeps documents document name := by
  intro inner reached
  refine same inner ?_
  induction reached with
  | refl => exact isNamed
  | tail _ refers ih =>
      obtain ⟨definition, defined, term, isTerm, rfl⟩ := refers
      exact closed _ ih definition defined term isTerm

namespace Library.Unfolds

/-- The components of a flattened model are what their origins become. -/
theorem becomes (unfolds : library.Unfolds model flat expansions) :
    List.Forall₂ Origin.Becomes (Expansion.originsAll model expansions) flat.preorder := by
  rw [unfolds.preorder_eq]
  exact Expansion.becomesAll_of fun expansion _ => expansion.becomes model

/-- All components are written out in the model or in a document that has been copied from. -/
theorem isFrom (unfolds : library.Unfolds model flat expansions) {origin : Origin}
    (membership : origin ∈ Expansion.originsAll model expansions) :
    origin.IsFrom (model :: expansions.flatMap Expansion.documents) := by
  rw [Expansion.originsAll_eq, List.mem_flatMap] at membership
  obtain ⟨expansion, isTop, member⟩ := membership
  have isWritten : expansion.written ∈ model.preorder := by
    rw [Model.preorder, ← unfolds.written, Component.preorderAll_eq, List.flatMap_map]
    exact List.mem_flatMap.mpr ⟨expansion, isTop, Component.self_mem_preorder _⟩
  refine ((unfolds.made expansion isTop).isFrom isWritten member).mono ?_
  exact List.cons_subset_cons _ fun _ isSource => List.mem_flatMap.mpr ⟨expansion, isTop, isSource⟩

end Library.Unfolds

/-- Flattening keeps the meaning of units as far as definitions of one name do not get into each
other's way. Every component of a flattened model is written out in the model or in a document that
has been copied from. If all names that are defined there keep their meaning, the merged units can
be resolved; and whenever they can, the units of a declaration are the same as in its own document
if their name keeps its meaning. -/
theorem Library.flatten_keeps_units (flattened : library.flatten model = .ok flat) :
    ∃ expansions, library.Unfolds model flat expansions ∧
      List.Forall₂ Origin.Becomes (Expansion.originsAll model expansions) flat.preorder ∧
      (∀ origin ∈ Expansion.originsAll model expansions,
        origin.IsFrom (model :: expansions.flatMap Expansion.documents)) ∧
      (∀ name, effective? flat.units name =
        model.mergedUnits? (expansions.flatMap Expansion.documents) name) ∧
      ((∀ document ∈ model :: expansions.flatMap Expansion.documents,
          (∃ own, Registry.ofDefinitions document.units = .ok own) ∧
          ∀ definition ∈ document.units,
            model.Keeps (expansions.flatMap Expansion.documents) document definition.name) →
        ∃ registry, Registry.ofDefinitions flat.units = .ok registry) ∧
      ∀ registry, Registry.ofDefinitions flat.units = .ok registry →
        ∀ origin ∈ Expansion.originsAll model expansions,
        ∀ own, Registry.ofDefinitions origin.document.units = .ok own →
        ∀ declaration ∈ origin.written.declarations,
          model.Keeps (expansions.flatMap Expansion.documents) origin.document declaration.units →
            registry.canonical? declaration.units = own.canonical? declaration.units := by
  obtain ⟨expansions, unfolds, merged, -⟩ := Library.flatten_unfolds flattened
  have counts (name : String) : effective? flat.units name =
      model.mergedUnits? (expansions.flatMap Expansion.documents) name := by
    rw [merged, Flattening.effective?_foldl_mergeUnits]
  have same {document : Model} {name : String} {units : Units.Canonical}
      (keeps : model.Keeps (expansions.flatMap Expansion.documents) document name) :
      Denotes flat.units name units ↔ Denotes document.units name units :=
    Units.denotes_iff_of_same fun inner reached => (counts inner).trans (keeps inner reached)
  refine ⟨expansions, unfolds, unfolds.becomes, fun _ => unfolds.isFrom, counts, fun each => ?_,
    fun registry built origin _ own builtOwn declaration _ keeps => ?_⟩
  · rw [Registry.exists_ofDefinitions_iff, merged]
    intro definition membership
    obtain ⟨document, isDocument, isDefined⟩ := Flattening.mem_foldl_mergeUnits membership
    obtain ⟨resolves, keeps⟩ := each document isDocument
    obtain ⟨units, denotes⟩ := Registry.exists_ofDefinitions_iff.mp resolves definition isDefined
    rw [← merged]
    exact ⟨units, (same (keeps definition isDefined)).mpr denotes⟩
  · ext units
    rw [Registry.canonical?_eq_some_iff built, Registry.canonical?_eq_some_iff builtOwn]
    exact same keeps

end

/-! ## A wheel and its turns -/

section

variable {library : Library} {naming : Naming} {expansion : Expansion}

/-- A component that is written out without children has only itself to expand. -/
theorem Expansion.IsMadeBy.eq_plain (made : expansion.IsMadeBy library naming)
    (unimported : expansion.written.source = none) (leaf : expansion.written.components = []) :
    expansion = .plain expansion.written expansion.name [] := by
  cases made with
  | plain _ children =>
      rw [List.map_eq_nil_iff.mp (children.trans leaf)]
      rfl
  | imported imports => cases unimported.symm.trans imports

/-- An importing component without children has only the copy to expand. -/
theorem Expansion.IsMadeBy.eq_imported {source : ImportSource} {document : Model}
    {definition : Component} (made : expansion.IsMadeBy library naming)
    (imports : expansion.written.source = some source) (leaf : expansion.written.components = [])
    (found : library.definition? source = some (document, definition)) :
    ∃ copy, expansion = .imported expansion.written document copy [] ∧ copy.written = definition ∧
      copy.IsMadeBy library .fresh := by
  cases made with
  | plain unimported => cases unimported.symm.trans imports
  | @imported _ written _ copy _ _ importsOther foundOther copied children =>
      obtain rfl := Option.some.inj (imports.symm.trans importsOther)
      obtain ⟨rfl, same⟩ := Prod.mk.inj (Option.some.inj (found.symm.trans foundOther))
      rw [List.map_eq_nil_iff.mp (children.trans leaf)]
      exact ⟨copy, rfl, same.symm, copied⟩

end

/-- A wheel whose angle is measured in turns. -/
def wheel : Component :=
  ⟨"wheel", [⟨"angle", "turn", none, some .public⟩], none, [], none⟩

/-- The document of the wheel, with a definition of turns. -/
def wheelDocument : Model where
  schema := currentSchema
  name := "wheel_model"
  units := [⟨"turn", [⟨"radian", none, none, some 6.283185307179586⟩]⟩]
  components := [wheel]
  connections := []

def wheelLibrary : Library :=
  ⟨[("wheel.json", wheelDocument)]⟩

/-- A dial that is measured in radian. -/
def dial : Component :=
  ⟨"dial", [⟨"angle", "radian", none, some .public⟩], none, [], none⟩

/-- An imported wheel beside a dial. -/
def turnCounter : Model where
  schema := currentSchema
  name := "turn_counter"
  units := []
  components := [dial, ⟨"wheel", [], none, [], some ⟨"wheel.json", "wheel"⟩⟩]
  connections := [⟨"dial", "wheel", [⟨"angle", "angle"⟩]⟩]

/-- The same model where turns are counted, as a base unit. -/
def countedTurns : Model :=
  { turnCounter with units := [⟨"turn", []⟩] }

theorem turnCounter_origins {flat : Model} {expansions : List Expansion}
    (unfolds : wheelLibrary.Unfolds turnCounter flat expansions) :
    expansions.flatMap Expansion.documents = [wheelDocument] ∧
      ∃ name, Expansion.originsAll turnCounter expansions =
        [⟨turnCounter, dial, "dial"⟩, ⟨wheelDocument, wheel, name⟩] := by
  obtain ⟨first, rest, rfl, isDial, written⟩ := List.map_eq_cons_iff.mp unfolds.written
  obtain ⟨second, rest, rfl, isWheel, written⟩ := List.map_eq_cons_iff.mp written
  obtain rfl := List.map_eq_nil_iff.mp written
  have madeDial := unfolds.made first (by simp)
  have madeWheel := unfolds.made second (by simp)
  have named := unfolds.kept first (by simp)
  have first_eq := madeDial.eq_plain (by rw [isDial]; rfl) (by rw [isDial]; rfl)
  have found : wheelLibrary.definition? ⟨"wheel.json", "wheel"⟩ = some (wheelDocument, wheel) := rfl
  obtain ⟨copy, second_eq, copied, madeCopy⟩ :=
    madeWheel.eq_imported (by rw [isWheel]) (by rw [isWheel]) found
  have copy_eq := madeCopy.eq_plain (by rw [copied]; rfl) (by rw [copied]; rfl)
  rw [first_eq, second_eq, copy_eq, named, copied, isDial]
  exact ⟨rfl, copy.name, rfl⟩

theorem turnCounter_keeps_turns :
    ∃ flat own registry, wheelLibrary.flatten turnCounter = .ok flat ∧
      Registry.ofDefinitions wheelDocument.units = .ok own ∧
      Registry.ofDefinitions flat.units = .ok registry ∧
      registry.canonical? "turn" = own.canonical? "turn" := by
  obtain ⟨expansions, unfolds, -, -, -, resolves, keeps⟩ :=
    Library.flatten_keeps_units (rfl : wheelLibrary.flatten turnCounter = _)
  obtain ⟨documents, name, origins⟩ := turnCounter_origins unfolds
  rw [documents, origins] at keeps
  rw [documents] at resolves
  have keepsTurn : turnCounter.Keeps [wheelDocument] wheelDocument "turn" := by
    have closed : ∀ name ∈ ["turn", "radian"], ∀ definition,
        effective? wheelDocument.units name = some definition →
          ∀ term ∈ definition.units, term.reference ∈ ["turn", "radian"] := by
      intro name isNamed definition defined term isTerm
      obtain rfl : definition = ⟨"turn", [⟨"radian", none, none, some 6.283185307179586⟩]⟩ := by
        simpa [wheelDocument] using Units.effective?_mem defined
      simp_all
    have same : ∀ name ∈ ["turn", "radian"],
        turnCounter.mergedUnits? [wheelDocument] name = effective? wheelDocument.units name := by
      rw [List.forall_mem_cons, List.forall_mem_singleton]
      exact ⟨rfl, rfl⟩
    exact Model.keeps_of_closed closed same List.mem_cons_self
  obtain ⟨registry, built⟩ := resolves (by
    rw [List.forall_mem_cons, List.forall_mem_singleton]
    refine ⟨⟨⟨_, rfl⟩, nofun⟩, ⟨_, rfl⟩, ?_⟩
    rw [wheelDocument, List.forall_mem_singleton]
    exact keepsTurn)
  exact ⟨_, _, registry, rfl, rfl, built, keeps registry built ⟨wheelDocument, wheel, name⟩ (by simp)
    _ rfl ⟨"angle", "turn", none, some .public⟩ List.mem_cons_self keepsTurn⟩

/-- Where turns are a base unit of the model, those of the wheel become such turns. -/
theorem countedTurns_changes_turns :
    ∃ flat first own registry, wheelLibrary.flatten countedTurns = .ok flat ∧
      Registry.ofDefinitions countedTurns.units = .ok first ∧
      Registry.ofDefinitions wheelDocument.units = .ok own ∧
      Registry.ofDefinitions flat.units = .ok registry ∧
      (wheelDocument.findVariable "wheel" "angle").map Variable.units = some "turn" ∧
      (flat.findVariable "wheel" "angle").map Variable.units = some "turn" ∧
      registry.canonical? "turn" ≠ own.canonical? "turn" := by
  refine ⟨_, _, _, _, rfl, rfl, rfl, rfl, rfl, rfl, fun same => ?_⟩
  have dimensions := congrArg (Option.map fun units => units.dimensions.map Prod.fst) same
  revert dimensions
  decide +kernel

end ComponentModel
