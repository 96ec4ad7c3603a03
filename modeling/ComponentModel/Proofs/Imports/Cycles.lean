import ComponentModel.Proofs.Imports.Replacement
import Mathlib.Logic.Relation

/-!
# Cyclic imports

Copying a source goes on with the sources inside the component that it names. The recursion always
ends, since no text of a source is copied twice on the way to another and the library names only so
many components. A model can be flattened exactly if everything that it reaches is there and
nothing that it reaches leads back to itself; how often the same component is imported does not
matter.
-/

namespace ComponentModel

open Relation (TransGen ReflTransGen)

/-! ## Sources of a tree -/

theorem Component.mem_sources {component : Component} {source : ImportSource} :
    source ∈ component.sources ↔ component.source = some source ∨
      source ∈ (preorderAll component.components).filterMap Component.source := by
  rw [sources, preorder_eq, List.filterMap_cons]
  cases imports : component.source with
  | none => simp
  | some other => simp [eq_comm]

section Outcomes

variable {importer : Importer} {naming : Naming} {fault : ModelFault}

mutual

/-- An expansion fails only where a source of the tree cannot be copied. -/
theorem expandAs_error (newName : String) (written : Component) (names : Renaming)
    (state : Flattening)
    (failed : expandAs importer naming newName written names state = .error fault) :
    ∃ source ∈ written.sources, ∃ name state, importer source name state = .error fault := by
  match written with
  | .mk name declarations math components source =>
      rw [expandAs] at failed
      rcases bind_eq_error failed with self | ⟨⟨expanded, between⟩, -, failed⟩
      · cases source with
        | none => cases self
        | some source => exact ⟨source, Component.mem_sources.mpr (.inl rfl), newName, state, self⟩
      rcases bind_eq_error failed with below | ⟨_, -, failed⟩
      · obtain ⟨source, isInside, fails⟩ := expandAll_error components _ between below
        exact ⟨source, Component.mem_sources.mpr (.inr isInside), fails⟩
      · cases failed

theorem expandAll_error (written : List Component) (names : Renaming) (state : Flattening)
    (failed : expandAll importer naming written names state = .error fault) :
    ∃ source ∈ (Component.preorderAll written).filterMap Component.source,
      ∃ name state, importer source name state = .error fault := by
  match written with
  | [] => cases failed
  | head :: rest =>
      simp only [expandAll] at failed
      rw [Component.preorderAll, List.filterMap_append]
      rcases bind_eq_error failed with here | ⟨⟨expanded, between, middle⟩, -, failed⟩
      · obtain ⟨source, isInside, fails⟩ := expandAs_error _ head names _ here
        exact ⟨source, List.mem_append_left _ isInside, fails⟩
      rcases bind_eq_error failed with later | ⟨_, -, failed⟩
      · obtain ⟨source, isInside, fails⟩ := expandAll_error rest between middle later
        exact ⟨source, List.mem_append_right _ isInside, fails⟩
      · cases failed

end

mutual

/-- An expansion that succeeds has copied every source of the tree. -/
theorem expandAs_ok (newName : String) (written : Component) (names : Renaming)
    (state : Flattening) {result : Component × Renaming × Flattening}
    (done : expandAs importer naming newName written names state = .ok result) :
    ∀ source ∈ written.sources, ∃ name state copy, importer source name state = .ok copy := by
  match written with
  | .mk name declarations math components source =>
      rw [expandAs] at done
      obtain ⟨copy, self, done⟩ := bind_eq_ok done
      obtain ⟨_, below, -⟩ := bind_eq_ok done
      intro other isInside
      rcases Component.mem_sources.mp isInside with imports | isInside
      · obtain rfl : source = some other := imports
        exact ⟨newName, state, copy, self⟩
      · exact expandAll_ok components _ _ below other isInside

theorem expandAll_ok (written : List Component) (names : Renaming) (state : Flattening)
    {result : List Component × Renaming × Flattening}
    (done : expandAll importer naming written names state = .ok result) :
    ∀ source ∈ (Component.preorderAll written).filterMap Component.source,
      ∃ name state copy, importer source name state = .ok copy := by
  match written with
  | [] =>
      rw [Component.preorderAll]
      exact fun _ isInside => (List.not_mem_nil isInside).elim
  | head :: rest =>
      simp only [expandAll] at done
      obtain ⟨_, here, done⟩ := bind_eq_ok done
      obtain ⟨_, later, -⟩ := bind_eq_ok done
      rw [Component.preorderAll, List.filterMap_append, List.forall_mem_append]
      exact ⟨expandAs_ok _ head names _ here, expandAll_ok rest _ _ later⟩

end

end Outcomes

/-! ## The recursion without a bound -/

/-- Flattening with any way to copy sources. -/
def flattenBy (importer : Importer) (model : Model) : Except ModelFault Model := do
  if !model.hasImports then
    return model
  let state : Flattening :=
    { taken := model.preorder.map Component.name, connections := [], units := model.units }
  let (components, names, state) ← expandAll importer .keep model.components [] state
  return {
    schema := model.schema
    name := model.name
    units := state.units
    components
    connections := model.connections.filterMap (·.rename? names) ++ state.connections }

namespace Library

variable {library : Library} {model : Model} {source : ImportSource}

theorem flatten_eq (library : Library) (model : Model) :
    library.flatten model =
      flattenBy (library.importFrom (library.componentCount + 1) []) model := rfl

/-- Copying a source ends with an outcome, where the sources of a chain are being copied. A source
whose text is in the chain is refused, and so is one that names nothing; for any other the tree
that it names is copied, which copies the sources in it behind the longer chain. -/
inductive Ends (library : Library) : List String → ImportSource →
    (String → Flattening → Except ModelFault (Component × Flattening)) → Prop
  | circular {chain : List String} {source : ImportSource} (isInside : source.text ∈ chain) :
      Ends library chain source fun _ _ => .error (.circularImport (chain ++ [source.text]))
  | noDocument {chain : List String} {source : ImportSource} (outside : source.text ∉ chain)
      (missing : library.get? source.url = none) :
      Ends library chain source fun _ _ => .error (.importNotFound source.url)
  | noComponent {chain : List String} {source : ImportSource} {document : Model}
      (outside : source.text ∉ chain) (found : library.get? source.url = some document)
      (missing : document.findComponent source.component = none) :
      Ends library chain source fun _ _ => .error (.importedComponentNotFound source)
  | copied {chain : List String} {source : ImportSource} {document : Model}
      {definition : Component} {importer : Importer} (outside : source.text ∉ chain)
      (found : library.definition? source = some (document, definition))
      (each : ∀ next, Ends library (chain ++ [source.text]) next (importer next)) :
      Ends library chain source fun name state => do
        let (copy, names, state) ← expandAs importer .fresh name definition [] state
        return (copy, state.absorb document names)

/-- The recursion has one outcome at most. -/
theorem Ends.unique {chain : List String}
    {one other : String → Flattening → Except ModelFault (Component × Flattening)}
    (first : library.Ends chain source one) (second : library.Ends chain source other) :
    one = other := by
  induction first generalizing other with
  | circular isInside =>
      cases second with
      | circular => rfl
      | noDocument outside => exact absurd isInside outside
      | noComponent outside => exact absurd isInside outside
      | copied outside => exact absurd isInside outside
  | noDocument outside missing =>
      cases second with
      | circular isInside => exact absurd isInside outside
      | noDocument => rfl
      | noComponent _ found => cases missing.symm.trans found
      | copied _ found => cases missing.symm.trans (definition?_eq_some.mp found).1
  | noComponent outside found missing =>
      cases second with
      | circular isInside => exact absurd isInside outside
      | noDocument _ missing => cases missing.symm.trans found
      | noComponent => rfl
      | copied _ foundBoth =>
          obtain ⟨foundDocument, foundComponent⟩ := definition?_eq_some.mp foundBoth
          obtain rfl := Option.some.inj (found.symm.trans foundDocument)
          cases missing.symm.trans foundComponent
  | @copied _ _ document definition importer outside found _ ih =>
      cases second with
      | circular isInside => exact absurd isInside outside
      | noDocument _ missing => cases missing.symm.trans (definition?_eq_some.mp found).1
      | noComponent _ foundDocument missing =>
          obtain ⟨foundOther, foundComponent⟩ := definition?_eq_some.mp found
          obtain rfl := Option.some.inj (foundDocument.symm.trans foundOther)
          cases missing.symm.trans foundComponent
      | copied _ foundOther each =>
          obtain ⟨rfl, rfl⟩ := Prod.mk.inj (Option.some.inj (found.symm.trans foundOther))
          obtain rfl := funext fun next => ih next (each next)
          rfl

/-- The texts of sources that name something are no more than the components of the library. -/
theorem length_le_componentCount {chain : List String} (nodup : chain.Nodup)
    (known : ∀ text ∈ chain, ∃ source found, source.text = text ∧
      library.definition? source = some found) :
    chain.length ≤ library.componentCount := by
  have subset : chain ⊆ library.models.flatMap fun entry =>
      entry.2.preorder.map fun component => (⟨entry.1, component.name⟩ : ImportSource).text := by
    intro text membership
    obtain ⟨⟨url, name⟩, ⟨document, definition⟩, rfl, found⟩ := known text membership
    obtain ⟨foundDocument, foundComponent⟩ := definition?_eq_some.mp found
    obtain ⟨before, after, split, -⟩ := List.lookup_eq_some_iff.mp foundDocument
    have isListed : (url, document) ∈ library.models :=
      split ▸ List.mem_append_right _ List.mem_cons_self
    have named : definition.name = name := by simpa using List.find?_some foundComponent
    exact List.mem_flatMap.mpr ⟨(url, document), isListed,
      List.mem_map.mpr ⟨definition, List.mem_of_find?_eq_some foundComponent, by rw [named]⟩⟩
  have bound := (nodup.subperm subset).length_le
  simpa [componentCount, List.length_flatMap] using bound

section Equations

variable {depth : Nat} {chain : List String}

theorem importFrom_of_mem (isInside : source.text ∈ chain) :
    library.importFrom (depth + 1) chain source =
      fun _ _ => .error (.circularImport (chain ++ [source.text])) := by
  funext name state
  rw [importFrom]
  simp only [List.contains_iff_mem.mpr isInside]
  rfl

theorem importFrom_of_noDocument (outside : source.text ∉ chain)
    (missing : library.get? source.url = none) :
    library.importFrom (depth + 1) chain source =
      fun _ _ => .error (.importNotFound source.url) := by
  funext name state
  rw [importFrom]
  simp only [List.contains_eq_mem, outside, decide_false, missing]
  rfl

theorem importFrom_of_noComponent {document : Model} (outside : source.text ∉ chain)
    (found : library.get? source.url = some document)
    (missing : document.findComponent source.component = none) :
    library.importFrom (depth + 1) chain source =
      fun _ _ => .error (.importedComponentNotFound source) := by
  funext name state
  rw [importFrom]
  simp only [List.contains_eq_mem, outside, decide_false, found, missing]
  rfl

theorem importFrom_of_found {document : Model} {definition : Component}
    (outside : source.text ∉ chain)
    (found : library.definition? source = some (document, definition)) :
    library.importFrom (depth + 1) chain source = fun name state => do
      let (copy, names, state) ←
        expandAs (library.importFrom depth (chain ++ [source.text])) .fresh name definition [] state
      return (copy, state.absorb document names) := by
  obtain ⟨foundDocument, foundComponent⟩ := definition?_eq_some.mp found
  funext name state
  rw [importFrom]
  simp only [List.contains_eq_mem, outside, decide_false, foundDocument, foundComponent]
  rfl

end Equations

/-- A copy that may be as deep as the library has components is the recursion without a bound. -/
theorem ends_importFrom {depth : Nat} {chain : List String} (nodup : chain.Nodup)
    (known : ∀ text ∈ chain, ∃ source found, source.text = text ∧
      library.definition? source = some found)
    (deep : library.componentCount < depth + chain.length) (source : ImportSource) :
    library.Ends chain source (library.importFrom depth chain source) := by
  induction depth generalizing chain source with
  | zero =>
      have bound := length_le_componentCount nodup known
      omega
  | succ depth ih =>
      by_cases isInside : source.text ∈ chain
      · rw [importFrom_of_mem isInside]
        exact .circular isInside
      cases foundDocument : library.get? source.url with
      | none =>
          rw [importFrom_of_noDocument isInside foundDocument]
          exact .noDocument isInside foundDocument
      | some document =>
          cases foundComponent : document.findComponent source.component with
          | none =>
              rw [importFrom_of_noComponent isInside foundDocument foundComponent]
              exact .noComponent isInside foundDocument foundComponent
          | some definition =>
              have found := definition?_eq_some.mpr ⟨foundDocument, foundComponent⟩
              rw [importFrom_of_found isInside found]
              refine .copied isInside found (ih ?_ ?_ ?_)
              · exact List.nodup_append_comm.mp (List.nodup_cons.mpr ⟨isInside, nodup⟩)
              · rw [List.forall_mem_append, List.forall_mem_singleton]
                exact ⟨known, source, _, rfl, found⟩
              · rw [List.length_append, List.length_singleton]
                omega

/-! ## The graph of sources -/

/-- A source leads to those that are imported inside the component that it names. -/
def Leads (library : Library) (source next : ImportSource) : Prop :=
  ∃ document definition, library.definition? source = some (document, definition) ∧
    next ∈ definition.sources

/-- A model reaches the sources that it imports and those to which they lead. -/
def Reaches (library : Library) (model : Model) (source : ImportSource) : Prop :=
  ∃ first ∈ model.sources, ReflTransGen library.Leads first source

/-- Everything that a model reaches is in the library. -/
def HasAll (library : Library) (model : Model) : Prop :=
  ∀ source, library.Reaches model source → ∃ found, library.definition? source = some found

/-- Nothing that a model reaches leads back to itself. -/
def Acyclic (library : Library) (model : Model) : Prop :=
  ∀ source, library.Reaches model source → ¬TransGen library.Leads source source

/-- What has been copied has copied everything that it leads to, behind the sources of its
chain. -/
theorem Ends.copies {chain : List String}
    {run : String → Flattening → Except ModelFault (Component × Flattening)}
    (ends : library.Ends chain source run) {name : String} {state : Flattening}
    {result : Component × Flattening} (done : run name state = .ok result) {later : ImportSource}
    (leads : ReflTransGen library.Leads source later) :
    ∃ behind run name state result, chain ⊆ behind ∧ library.Ends behind later run ∧
      run name state = .ok result := by
  induction ends generalizing name state result with
  | circular => cases done
  | noDocument => cases done
  | noComponent => cases done
  | @copied chain source document definition importer outside found each ih =>
      rcases ReflTransGen.cases_head leads with rfl | ⟨next, ⟨_, _, foundOther, isInside⟩, onward⟩
      · exact ⟨chain, _, name, state, result, List.Subset.refl _, .copied outside found each, done⟩
      obtain ⟨-, rfl⟩ := Prod.mk.inj (Option.some.inj (found.symm.trans foundOther))
      obtain ⟨_, expands, -⟩ := bind_eq_ok done
      obtain ⟨_, _, _, copied⟩ := expandAs_ok _ definition _ _ expands next isInside
      obtain ⟨behind, later⟩ := ih next copied onward
      obtain ⟨run, name, state, result, subset, ends, done⟩ := later
      exact ⟨behind, run, name, state, result,
        List.Subset.trans (List.subset_append_left _ _) subset, ends, done⟩

/-- What has been copied is in the library and leads to nothing that leads back to itself. -/
theorem Ends.sound {chain : List String}
    {run : String → Flattening → Except ModelFault (Component × Flattening)}
    (ends : library.Ends chain source run) {name : String} {state : Flattening}
    {result : Component × Flattening} (done : run name state = .ok result) {later : ImportSource}
    (leads : ReflTransGen library.Leads source later) :
    (∃ found, library.definition? later = some found) ∧ ¬TransGen library.Leads later later := by
  obtain ⟨behind, run, name, state, result, -, ends, done⟩ := ends.copies done leads
  cases ends with
  | circular => cases done
  | noDocument => cases done
  | noComponent => cases done
  | @copied _ _ document definition importer outside found each =>
      refine ⟨⟨_, found⟩, fun cycle => ?_⟩
      obtain ⟨next, ⟨_, _, foundOther, isInside⟩, back⟩ := TransGen.head'_iff.mp cycle
      obtain ⟨-, rfl⟩ := Prod.mk.inj (Option.some.inj (found.symm.trans foundOther))
      obtain ⟨_, expands, -⟩ := bind_eq_ok done
      obtain ⟨_, _, _, copied⟩ := expandAs_ok _ definition _ _ expands next isInside
      -- Back at the source, its own text is in the chain.
      obtain ⟨chain, run, _, _, _, subset, ends, done⟩ := (each next).copies copied back
      have again : later.text ∈ chain :=
        subset (List.mem_append_right _ (List.mem_singleton_self _))
      obtain rfl := ends.unique (.circular again)
      cases done

/-- In a graph without cycles a copy fails only where something is not in the library. -/
theorem Ends.fault_of_acyclic {chain : List String}
    {run : String → Flattening → Except ModelFault (Component × Flattening)}
    (ends : library.Ends chain source run) (acyclic : library.Acyclic model)
    (apart : ∀ one other, library.Reaches model one → library.Reaches model other →
      one.text = other.text → one = other)
    (reached : library.Reaches model source)
    (before : ∀ text ∈ chain, ∃ earlier, earlier.text = text ∧ library.Reaches model earlier ∧
      TransGen library.Leads earlier source)
    {name : String} {state : Flattening} {fault : ModelFault}
    (failed : run name state = .error fault) :
    ∃ missing, library.Reaches model missing ∧ library.definition? missing = none ∧
      (fault = .importNotFound missing.url ∨ fault = .importedComponentNotFound missing) := by
  induction ends generalizing name state fault with
  | @circular chain source isInside =>
      obtain ⟨earlier, same, reachedEarlier, leads⟩ := before _ isInside
      obtain rfl := apart earlier source reachedEarlier reached same
      exact absurd leads (acyclic earlier reached)
  | @noDocument chain source outside missing =>
      refine ⟨source, reached, ?_, .inl (Except.error.inj failed).symm⟩
      rw [definition?, missing]
      rfl
  | @noComponent chain source document outside found missing =>
      refine ⟨source, reached, ?_, .inr (Except.error.inj failed).symm⟩
      simp only [definition?, found, missing, Option.bind_eq_bind, Option.bind_some,
        Option.bind_none]
  | @copied chain source document definition importer outside found each ih =>
      rcases bind_eq_error failed with expands | ⟨_, -, failed⟩
      · obtain ⟨next, isInside, _, _, fails⟩ := expandAs_error _ definition _ _ expands
        have leads : library.Leads source next := ⟨document, definition, found, isInside⟩
        obtain ⟨first, imported, path⟩ := id reached
        refine ih next ⟨first, imported, path.tail leads⟩ ?_ fails
        rw [List.forall_mem_append, List.forall_mem_singleton]
        refine ⟨fun text membership => ?_, source, rfl, reached, .single leads⟩
        obtain ⟨earlier, same, reachedEarlier, path⟩ := before text membership
        exact ⟨earlier, same, reachedEarlier, path.tail leads⟩
      · cases failed

end Library

/-! ## Flattening -/

theorem flattenBy_error {importer : Importer} {model : Model} {fault : ModelFault}
    (failed : flattenBy importer model = .error fault) :
    ∃ source ∈ model.sources, ∃ name state, importer source name state = .error fault := by
  rw [flattenBy] at failed
  split at failed
  · cases failed
  rcases bind_eq_error failed with expands | ⟨_, -, failed⟩
  · exact expandAll_error model.components _ _ expands
  · cases failed

theorem flattenBy_ok {importer : Importer} {model flat : Model}
    (done : flattenBy importer model = .ok flat) :
    ∀ source ∈ model.sources, ∃ name state copy, importer source name state = .ok copy := by
  rw [flattenBy] at done
  split at done
  case isTrue unimported =>
    intro source isInside
    obtain ⟨component, membership, imports⟩ := List.mem_filterMap.mp isInside
    have none : component.source = none := by
      simp only [Model.hasImports, Component.isImport, Bool.not_eq_true', List.any_eq_false,
        Bool.not_eq_true, Option.isSome_eq_false_iff, Option.isNone_iff_eq_none] at unimported
      exact unimported component membership
    cases none.symm.trans imports
  case isFalse =>
    obtain ⟨_, expands, -⟩ := bind_eq_ok done
    exact expandAll_ok model.components _ _ expands

/-- Flattening always ends: it is the recursion without a bound, and the search for a free name
stops at the first candidate that is not in use. Where sources that the model reaches have
different texts, it succeeds exactly if everything that the model reaches is in the library and
nothing leads back to itself; a graph without cycles is never refused as circular. -/
theorem Library.flatten_ok_iff (library : Library) (model : Model)
    (apart : ∀ one other, library.Reaches model one → library.Reaches model other →
      one.text = other.text → one = other) :
    (∃ importer : Importer, (∀ source, library.Ends [] source (importer source)) ∧
        library.flatten model = flattenBy importer model) ∧
      (∀ (state : Flattening) (name : String), ∃ index,
        state.unique name = Flattening.candidate name index ∧
          Flattening.candidate name index ∉ state.taken ∧
          ∀ earlier < index, Flattening.candidate name earlier ∈ state.taken) ∧
      ((∃ flat, library.flatten model = .ok flat) ↔
        library.HasAll model ∧ library.Acyclic model) ∧
      (library.Acyclic model →
        ∀ chain, library.flatten model ≠ .error (.circularImport chain)) := by
  have ends (source : ImportSource) :
      library.Ends [] source (library.importFrom (library.componentCount + 1) [] source) :=
    Library.ends_importFrom List.nodup_nil (by simp) (by simp) source
  have fault_of_acyclic (acyclic : library.Acyclic model) {fault : ModelFault}
      (failed : library.flatten model = .error fault) :
      ∃ missing, library.Reaches model missing ∧ library.definition? missing = none ∧
        (fault = .importNotFound missing.url ∨ fault = .importedComponentNotFound missing) := by
    obtain ⟨source, imported, _, _, fails⟩ := flattenBy_error failed
    exact (ends source).fault_of_acyclic acyclic apart ⟨source, imported, .refl⟩ (by simp) fails
  refine ⟨⟨_, ends, library.flatten_eq model⟩, Flattening.unique_eq_candidate, ⟨?_, ?_⟩, ?_⟩
  · rintro ⟨flat, done⟩
    have sound (source : ImportSource) (reached : library.Reaches model source) :
        (∃ found, library.definition? source = some found) ∧
          ¬TransGen library.Leads source source := by
      obtain ⟨first, imported, leads⟩ := reached
      obtain ⟨_, _, _, copied⟩ := flattenBy_ok done first imported
      exact (ends first).sound copied leads
    exact ⟨fun source reached => (sound source reached).1,
      fun source reached => (sound source reached).2⟩
  · rintro ⟨hasAll, acyclic⟩
    cases outcome : library.flatten model with
    | ok flat => exact ⟨flat, rfl⟩
    | error fault =>
        obtain ⟨missing, reached, absent, -⟩ := fault_of_acyclic acyclic outcome
        obtain ⟨_, found⟩ := hasAll missing reached
        cases absent.symm.trans found
  · intro acyclic chain failed
    obtain ⟨_, -, -, fault | fault⟩ := fault_of_acyclic acyclic failed
    · cases fault
    · cases fault

theorem reaches_tissue {source : ImportSource} (reached : tissueLibrary.Reaches tissue source) :
    source = ⟨"junction.json", "junction"⟩ ∨ source = ⟨"membrane.json", "membrane"⟩ := by
  obtain ⟨first, imported, leads⟩ := reached
  induction leads with
  | refl => exact .inl (List.mem_singleton.mp imported)
  | tail _ onward ih =>
      obtain ⟨document, definition, found, isInside⟩ := onward
      rcases ih with rfl | rfl
      · obtain ⟨rfl, rfl⟩ := Prod.mk.inj (Option.some.inj found)
        have listed := List.mem_pair.mp isInside
        exact .inr (or_self_iff.mp listed)
      · obtain ⟨rfl, rfl⟩ := Prod.mk.inj (Option.some.inj found)
        exact absurd isInside List.not_mem_nil

/-- The membrane is imported twice, and nothing is circular. -/
theorem flatten_tissue_ok :
    (∀ one other, tissueLibrary.Reaches tissue one → tissueLibrary.Reaches tissue other →
        one.text = other.text → one = other) ∧
      tissueLibrary.HasAll tissue ∧ tissueLibrary.Acyclic tissue ∧
      ∀ chain, tissueLibrary.flatten tissue ≠ .error (.circularImport chain) := by
  have apart : ∀ one other, tissueLibrary.Reaches tissue one → tissueLibrary.Reaches tissue other →
      one.text = other.text → one = other := by
    intro one other reached reachedOther same
    rcases reaches_tissue reached with rfl | rfl <;>
      rcases reaches_tissue reachedOther with rfl | rfl
    · rfl
    · exact absurd same (by decide)
    · exact absurd same (by decide)
    · rfl
  obtain ⟨-, -, succeeds, neverCircular⟩ := Library.flatten_ok_iff tissueLibrary tissue apart
  obtain ⟨hasAll, acyclic⟩ := succeeds.mp ⟨_, rfl⟩
  exact ⟨apart, hasAll, acyclic, neverCircular acyclic⟩

end ComponentModel
