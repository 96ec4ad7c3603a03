import ComponentModel.Proofs.Equivalence

/-!
# Classes of declarations

The declarations of a model fall into classes, and after gathering every class has exactly one
record. A record names declarations of its own class only, whatever is done to it later: an
initial value that is taken over, the search for the first declaration of the variable of
integration and the report of an equation's own declaration all stay within the class.
-/

namespace ComponentModel.Analysis

namespace Index

/-- Every declaration has a class, which a declaration stands for. -/
structure Bounded (index : Index) : Prop where
  length : index.classes.length = index.declarations.length
  inside : ∀ representative ∈ index.classes, representative < index.declarations.length

theorem bounded_ofModel (model : Model) : (ofModel model).Bounded where
  length := length_classes model
  inside := by
    intro representative membership
    rw [classes_ofModel] at membership
    obtain ⟨declaration, isDeclaration, rfl⟩ := List.mem_map.mp membership
    exact ((united_ofModel model).ordered.root_le declaration).trans_lt
      (List.mem_range.mp isDeclaration)

variable {index : Index}

/-- The representative of a class is a declaration exactly if the members of the class are. -/
theorem Bounded.classOf_lt_iff (bounded : index.Bounded) (declaration : Nat) :
    index.classOf declaration < index.declarations.length ↔
      declaration < index.declarations.length := by
  unfold classOf
  rw [← bounded.length, List.getD_eq_getElem?_getD]
  by_cases inside : declaration < index.classes.length
  · simp only [List.getElem?_eq_getElem inside, Option.getD_some, inside, iff_true]
    exact bounded.length ▸ bounded.inside _ (List.getElem_mem inside)
  · simp [List.getElem?_eq_none (Nat.le_of_not_lt inside)]

theorem equivalent_iff {one other : Nat} :
    index.equivalent one other ↔ index.classOf one = index.classOf other :=
  beq_iff_eq

variable {model : Model}

/-- The declarations of a component follow one another, and those of all components together are
all declarations. -/
theorem flatMap_variablesOf (model : Model) :
    (ofModel model).components.zipIdx.flatMap (fun entry => (ofModel model).variablesOf entry.2) =
      List.range (ofModel model).declarations.length := by
  rw [← flatMap_range_variablesOf, List.range_eq_range', ← List.zipIdx_map_snd, List.flatMap_map]

theorem lt_of_mem_variablesOf {entry : Component × Nat} {declaration : Nat}
    (listed : entry ∈ (ofModel model).components.zipIdx)
    (membership : declaration ∈ (ofModel model).variablesOf entry.2) :
    declaration < (ofModel model).declarations.length := by
  rw [← List.mem_range, ← flatMap_variablesOf]
  exact List.mem_flatMap.mpr ⟨entry, listed, membership⟩

/-- What an equation of a component mentions are declarations of the model. -/
theorem lt_of_mem_readEquation {component declaration : Nat} {element : Markup.Element}
    {role : Equation.Role} (membership : .declared role declaration ∈
      (Equation.readEquation ((ofModel model).lookup? component) element).2) :
    declaration < (ofModel model).declarations.length := by
  have agrees := Equation.agrees_readElement ((ofModel model).lookup? component) true .plain element
  have mentioned : (role, declaration) ∈
      (Equation.readEquation ((ofModel model).lookup? component) element).1.mentions .plain := by
    rw [Equation.readEquation, ← agrees.mentions]
    exact List.mem_filterMap.mpr ⟨_, membership, rfl⟩
  obtain ⟨name, found⟩ := agrees.declared _ mentioned
  exact lookup?_lt found

end Index

/-! ## One record for each class -/

/-- The declarations that a record names are members of its class, and declarations of the
model. -/
structure Record.Belongs (index : Index) (record : Record) : Prop where
  initial : index.classOf record.initialDeclaration = record.representative
  declared : index.classOf record.declaration = record.representative
  inside : record.representative < index.declarations.length

namespace Record.Belongs

variable {index : Index} {record : Record} {declaration : Nat}

theorem new (bounded : index.Bounded) (inside : declaration < index.declarations.length) :
    (Record.new index declaration).Belongs index :=
  ⟨rfl, rfl, (bounded.classOf_lt_iff declaration).mpr inside⟩

/-- A record that reports another declaration of its class. -/
theorem report (belongs : record.Belongs index)
    (same : index.classOf declaration = record.representative) :
    { record with declaration }.Belongs index :=
  ⟨belongs.initial, same, belongs.inside⟩

theorem track (belongs : record.Belongs index)
    (same : index.classOf declaration = record.representative) (initialised : Bool) :
    (record.track declaration initialised).Belongs index :=
  ⟨same, same, belongs.inside⟩

/-- Whether a record names its own class does not depend on what is known about the class. -/
theorem congr {changed : Record} (belongs : record.Belongs index)
    (representative : changed.representative = record.representative)
    (initial : changed.initialDeclaration = record.initialDeclaration)
    (declared : changed.declaration = record.declaration) : changed.Belongs index where
  initial := by rw [initial, representative, belongs.initial]
  declared := by rw [declared, representative, belongs.declared]
  inside := representative ▸ belongs.inside

theorem declaration_lt (belongs : record.Belongs index) (bounded : index.Bounded) :
    record.declaration < index.declarations.length := by
  rw [← bounded.classOf_lt_iff, belongs.declared]
  exact belongs.inside

theorem initialDeclaration_lt (belongs : record.Belongs index) (bounded : index.Bounded) :
    record.initialDeclaration < index.declarations.length := by
  rw [← bounded.classOf_lt_iff, belongs.initial]
  exact belongs.inside

end Record.Belongs

namespace Registry

variable {index : Index} {registry : Registry} {number declaration : Nat}

/-- The record that is found for a declaration is that of its class. -/
theorem representative_of_find? (found : registry.find? index declaration = some number) :
    (registry.get number).representative = index.classOf declaration := by
  obtain ⟨inside, same, -⟩ := List.findIdx?_eq_some_iff_getElem.mp found
  rw [get_of_lt inside]
  exact eq_of_beq same

/-- Records of different classes, each naming its own. -/
structure Classified (index : Index) (registry : Registry) : Prop where
  belongs : ∀ record ∈ registry, record.Belongs index
  nodup : (registry.map Record.representative).Nodup

namespace Classified

theorem empty : Classified index [] :=
  ⟨by simp, List.nodup_nil⟩

/-- Meeting a class. -/
theorem resolve (classified : Classified index registry) (bounded : index.Bounded)
    (inside : declaration < index.declarations.length) :
    Classified index (registry.resolve index declaration).2 := by
  unfold Registry.resolve
  split
  case h_1 => exact classified
  case h_2 missing =>
    refine ⟨fun record membership => ?_, ?_⟩
    · rcases List.mem_append.mp membership with earlier | new
      · exact classified.belongs record earlier
      · exact List.mem_singleton.mp new ▸ .new bounded inside
    · rw [List.map_append, List.map_singleton]
      refine classified.nodup.append (List.nodup_singleton _) ?_
      simp only [Registry.find?, List.findIdx?_eq_none_iff] at missing
      simpa [Record.new, Record.track] using missing

/-- A change that lets a record name its own class. -/
theorem change (classified : Classified index registry) (number : Nat) {update : Record → Record}
    (representative :
      (update (registry.get number)).representative = (registry.get number).representative)
    (belongs : (registry.get number).Belongs index →
      (update (registry.get number)).Belongs index) :
    Classified index (registry.change number update) where
  belongs := by
    have every := classified.belongs
    rw [forall_mem_iff] at every ⊢
    intro other inside
    rw [length_change] at inside
    by_cases same : number = other
    · subst same
      rw [get_change_self update inside]
      exact belongs (every number inside)
    · rw [get_change_of_ne update same]
      exact every other inside
  nodup := by
    rw [map_representative_change update representative]
    exact classified.nodup

/-- Every number is that of the record which is found for the record's declarations. -/
theorem find?_eq_some (classified : Classified index registry) (inside : number < registry.length)
    (same : index.classOf declaration = (registry.get number).representative) :
    registry.find? index declaration = some number := by
  rw [find?_eq_findIdx?, List.findIdx?_eq_some_iff_getElem]
  have known : number < (registry.map Record.representative).length := by simpa using inside
  have here : (registry.map Record.representative)[number] = index.classOf declaration := by
    rw [List.getElem_map, ← get_of_lt inside, same]
  refine ⟨known, by simp [here], fun other before => ?_⟩
  rw [← here, Bool.not_eq_true, beq_eq_false_iff_ne]
  intro equal
  have equal := (classified.nodup.getElem_inj_iff).mp equal
  omega

end Classified

end Registry

/-! ## Gathering -/

namespace Gathered

/-- What a gathering goes through, with the declarations that have been met so far: names that are
not declared are reported, mentions make records, equations are taken in and declarations are
met. -/
inductive Gathers (index : Index) : (met : List Nat) → Gathered → Prop
  | start : Gathers index [] ⟨[], [], []⟩
  | undeclared {met : List Nat} {gathered : Gathered} (earlier : Gathers index met gathered)
      (place : VariableName) : Gathers index met (gathered.report (.undefinedVariable place))
  | mention {met : List Nat} {gathered : Gathered} (earlier : Gathers index met gathered)
      {declaration : Nat} (inside : declaration < index.declarations.length) :
      Gathers index met
        { gathered with registry := (gathered.registry.resolve index declaration).2 }
  | equation {met : List Nat} {gathered : Gathered} (earlier : Gathers index met gathered)
      (equation : OrderedEquation) :
      Gathers index met { gathered with equations := gathered.equations ++ [equation] }
  | meet {met : List Nat} {gathered : Gathered} (earlier : Gathers index met gathered)
      {declaration : Nat} (inside : declaration < index.declarations.length) :
      Gathers index (met ++ [declaration]) (addDeclaration index gathered declaration)

variable {model : Model} {property : Registry → Prop} {gathered : Gathered} {met : List Nat}

namespace Gathers

theorem mentions (gathers : Gathers (.ofModel model) met gathered) (component : String)
    {references : References} {mentions : List Equation.Mention}
    (declared : ∀ role declaration, .declared role declaration ∈ mentions →
      declaration < (Index.ofModel model).declarations.length) :
    Gathers (.ofModel model) met
      (mentions.foldl (Gathered.mention (.ofModel model) component) (gathered, references)).1 := by
  refine List.foldlRecOn (motive := fun state : Gathered × References =>
    Gathers (.ofModel model) met state.1) _ _ gathers ?_
  rintro ⟨gathered, references⟩ gathers mention membership
  cases mention with
  | undeclared name => exact gathers.undeclared ⟨component, name⟩
  | declared role declaration => exact gathers.mention (declared role declaration membership)

theorem addEquation (gathers : Gathers (.ofModel model) met gathered) (component : Nat)
    (name : String) (element : Markup.Element) :
    Gathers (.ofModel model) met
      (addEquation (.ofModel model) component name gathered element) := by
  have mentions : Gathers (.ofModel model) met
      ((Equation.readEquation ((Index.ofModel model).lookup? component) element).2.foldl
        (Gathered.mention (.ofModel model) name) (gathered, ⟨[], []⟩)).1 :=
    gathers.mentions name fun _ _ => Index.lt_of_mem_readEquation
  unfold Gathered.addEquation
  simp only
  split
  case isTrue => exact mentions.equation _
  case isFalse => exact mentions

theorem addMath (gathers : Gathers (.ofModel model) met gathered) (number : Nat)
    (component : Component) :
    Gathers (.ofModel model) met (addMath (.ofModel model) number component gathered) := by
  unfold Gathered.addMath
  split
  · exact gathers
  · split
    · exact gathers
    · exact List.foldlRecOn _ _ gathers fun _ gathers element _ =>
        gathers.addEquation number component.name element

theorem addDeclarations (gathers : Gathers (.ofModel model) met gathered) {declarations : List Nat}
    (inside : ∀ declaration ∈ declarations,
      declaration < (Index.ofModel model).declarations.length) :
    Gathers (.ofModel model) (met ++ declarations)
      (declarations.foldl (addDeclaration (.ofModel model)) gathered) := by
  induction declarations generalizing gathered met with
  | nil => simpa using gathers
  | cons head rest ih =>
      have step := ih (gathers.meet (inside head (by simp)))
        fun declaration later => inside declaration (List.mem_cons_of_mem _ later)
      simpa using step

theorem visits (gathers : Gathers (.ofModel model) met gathered)
    {entries : List (Component × Nat)}
    (listed : ∀ entry ∈ entries, entry ∈ (Index.ofModel model).components.zipIdx) :
    Gathers (.ofModel model)
      (met ++ entries.flatMap fun entry => (Index.ofModel model).variablesOf entry.2)
      (entries.foldl (visit (.ofModel model)) gathered) := by
  induction entries generalizing gathered met with
  | nil => simpa using gathers
  | cons head rest ih =>
      have visited := (gathers.addMath head.2 head.1).addDeclarations fun _ =>
        Index.lt_of_mem_variablesOf (listed head (by simp))
      have step := ih visited fun entry later => listed entry (List.mem_cons_of_mem _ later)
      simpa [visit] using step

end Gathers

/-- A gathering meets each declaration once, in order. -/
theorem gathers_ofIndex (model : Model) :
    Gathers (.ofModel model) (List.range (Index.ofModel model).declarations.length)
      (ofIndex (.ofModel model)) := by
  have visited := (Gathers.start : Gathers (.ofModel model) _ _).visits fun _ => id
  rwa [List.nil_append, Index.flatMap_variablesOf] at visited

/-- A property of records that is kept when a class is met and when it takes over an initial
value. -/
structure Keeps (index : Index) (property : Registry → Prop) : Prop where
  resolve : ∀ registry declaration, declaration < index.declarations.length →
    property registry → property (registry.resolve index declaration).2
  track : ∀ registry declaration number, registry.find? index declaration = some number →
    (index.declaration declaration).isInitialised → property registry →
    property (registry.change number (·.track declaration true))

namespace Keeps

theorem addDeclaration {index : Index} (keeps : Keeps index property) {declaration : Nat}
    (inside : declaration < index.declarations.length) (holds : property gathered.registry) :
    property (addDeclaration index gathered declaration).registry := by
  have met := keeps.resolve _ _ inside holds
  unfold Gathered.addDeclaration
  simp only
  split
  case isTrue fresh =>
    have initialised := (Bool.and_eq_true_iff.mp fresh).1
    exact keeps.track _ _ _ (Registry.find?_resolve _ _) initialised met
  case isFalse => split <;> exact met

/-- What is kept by meeting and tracking holds of all that is gathered. -/
theorem of_gathers {index : Index} (keeps : Keeps index property) (empty : property [])
    (gathers : Gathers index met gathered) : property gathered.registry := by
  induction gathers with
  | start => exact empty
  | undeclared _ _ ih => exact ih
  | mention _ inside ih => exact keeps.resolve _ _ inside ih
  | equation _ _ ih => exact ih
  | meet _ inside ih => exact keeps.addDeclaration inside ih

theorem ofIndex (keeps : Keeps (.ofModel model) property) (empty : property []) :
    property (ofIndex (.ofModel model)).registry :=
  keeps.of_gathers empty (gathers_ofIndex model)

end Keeps

/-- Records stay those of different classes. -/
theorem keeps_classified (model : Model) :
    Keeps (.ofModel model) (Registry.Classified (.ofModel model)) where
  resolve _ _ inside classified := classified.resolve (Index.bounded_ofModel model) inside
  track _ _ number found _ classified :=
    classified.change number rfl fun belongs =>
      belongs.track (Registry.representative_of_find? found).symm true

/-- A declaration that has been met has a record. -/
theorem Gathers.isSome_find? {index : Index} {declaration : Nat}
    (gathers : Gathers index met gathered) (membership : declaration ∈ met) :
    (gathered.registry.find? index declaration).isSome := by
  have kept (registry : Registry) (other : Nat)
      (found : (registry.find? index declaration).isSome) :
      ((registry.resolve index other).2.find? index declaration).isSome := by
    obtain ⟨number, found⟩ := Option.isSome_iff_exists.mp found
    rw [Registry.find?_resolve_of_some _ found]
    rfl
  induction gathers with
  | start => cases membership
  | undeclared _ _ ih => exact ih membership
  | mention _ _ ih => exact kept _ _ (ih membership)
  | equation _ _ ih => exact ih membership
  | @meet met gathered _ other _ ih =>
      have found : ((gathered.registry.resolve index other).2.find? index declaration).isSome := by
        rcases List.mem_append.mp membership with earlier | new
        · exact kept _ _ (ih earlier)
        · rw [List.mem_singleton.mp new, Registry.find?_resolve]
          rfl
      unfold addDeclaration
      simp only
      split
      case isTrue =>
        rw [Registry.find?_change]
        · exact found
        · rfl
      case isFalse => split <;> exact found

/-- Every declaration of a model has a record. -/
theorem isSome_find?_ofIndex {declaration : Nat}
    (inside : declaration < (Index.ofModel model).declarations.length) :
    ((ofIndex (.ofModel model)).registry.find? (.ofModel model) declaration).isSome :=
  (gathers_ofIndex model).isSome_find? (List.mem_range.mpr inside)

end Gathered

/-! ## Derivatives and elimination -/

namespace Differentiated

/-- A property of records that is kept when a class is found differentiated and when it is found to
be the variable of integration. -/
structure Keeps (index : Index) (property : Registry → Prop) : Prop where
  makeState : ∀ registry number, property registry →
    property (registry.change number Record.makeState)
  integrate : ∀ registry declaration number, registry.find? index declaration = some number →
    property registry → property (registry.change number fun record =>
      (record.track ((index.firstOfModel? declaration).getD declaration)
        false).makeIntegrationVariable)

namespace Keeps

variable {index : Index} {property : Registry → Prop}

theorem note (keeps : Keeps index property) {state : Differentiated}
    (holds : property state.gathered.registry) (finding : Equation.Expr.Finding) :
    property (state.note index finding).gathered.registry := by
  cases finding with
  | notFirstOrder declaration => exact holds
  | state declaration =>
      unfold Differentiated.note
      simp only
      split
      · exact keeps.makeState _ _ holds
      · exact holds
  | integrationVariable declaration =>
      unfold Differentiated.note Differentiated.integrateBy
      simp only
      split
      · cases (index.declaration declaration).isInitialised
        all_goals
          simp only [Bool.false_eq_true, if_false, if_true, Gathered.report]
          split
          · next number found => exact keeps.integrate _ declaration number found holds
          · exact holds
      · split <;> exact holds

/-- What is kept by all findings holds after a look at all derivatives. -/
theorem ofGathered (keeps : Keeps index property) {gathered : Gathered}
    (holds : property gathered.registry) :
    property (Differentiated.ofGathered index gathered).gathered.registry :=
  List.foldlRecOn (motive := fun state : Differentiated => property state.gathered.registry)
    _ _ holds fun _ holds finding _ => keeps.note holds finding

end Keeps

/-- Findings about derivatives leave the records those of different classes. -/
theorem keeps_classified (index : Index) : Keeps index (Registry.Classified index) where
  makeState _ _ classified := classified.change _ rfl fun belongs => belongs.congr rfl rfl rfl
  integrate _ declaration number found classified := by
    have same := Derived.equivalent_reported index declaration
    refine classified.change number rfl fun belongs => ?_
    have first := (Index.equivalent_iff.mp same).trans
      (Registry.representative_of_find? found).symm
    exact (belongs.track first false).congr rfl rfl rfl

end Differentiated

namespace Registry.Classified

variable {index : Index}

/-- Placing the constants leaves the records those of different classes. -/
theorem startOfElimination {gathered : Gathered} (classified : Classified index gathered.registry) :
    Classified index
      (startOfElimination gathered (byName index gathered.registry)).registry where
  belongs := by
    have every := classified.belongs
    rw [forall_mem_iff] at every ⊢
    intro number inside
    rw [length_startOfElimination index gathered] at inside
    have same := unplaced_startOfElimination index gathered number
    exact (every number inside).congr (congrArg Record.representative same :)
      (congrArg Record.initialDeclaration same :) (congrArg Record.declaration same :)
  nodup := by
    rw [representatives_startOfElimination]
    exact classified.nodup

/-- An elimination leaves the records those of different classes. -/
theorem of_moves {start state : Elimination} (classified : Classified index start.registry)
    (moves : Relation.ReflTransGen (Elimination.Move index) start state) :
    Classified index state.registry := by
  induction moves with
  | refl => exact classified
  | tail _ move ih =>
      cases move with
      | mark => exact ih.change _ rfl fun belongs => belongs.congr rfl rfl rfl
      | reduce => exact ih
      | report number declaration same =>
          refine ih.change number rfl fun belongs => belongs.report ?_
          exact (Index.equivalent_iff.mp same).trans belongs.declared
      | compute => exact ih.change _ rfl fun belongs => belongs.congr rfl rfl rfl

end Registry.Classified

namespace Stage

variable {model : Model} {one other declaration record : Nat}

theorem bounded (model : Model) : (index model).Bounded :=
  Index.bounded_ofModel model

/-- The records of an analysis are those of different classes. -/
theorem classified (model : Model) : Registry.Classified (index model) (final model).registry := by
  have gathered := (Gathered.keeps_classified model).ofIndex .empty
  have derived := (Differentiated.keeps_classified (index model)).ofGathered gathered
  exact derived.startOfElimination.of_moves (moves model)

/-- Every declaration has a record. -/
theorem exists_record (inside : declaration < (index model).declarations.length) :
    ∃ record, (final model).registry.find? (index model) declaration = some record := by
  rw [find?_final]
  exact Option.isSome_iff_exists.mp (Gathered.isSome_find?_ofIndex inside)

/-- Two declarations have the same record exactly if they are equivalent. -/
theorem find?_eq_iff (inside : one < (index model).declarations.length) :
    (final model).registry.find? (index model) one =
        (final model).registry.find? (index model) other ↔
      (index model).equivalent one other := by
  constructor
  · intro same
    obtain ⟨record, found⟩ := exists_record inside
    rw [Index.equivalent_iff, ← Registry.representative_of_find? found,
      Registry.representative_of_find? (same.symm.trans found)]
  · exact Registry.find?_of_equivalent

/-- What a record names are declarations of its class. -/
theorem belongs (inside : record < (final model).registry.length) :
    ((final model).registry.get record).Belongs (index model) :=
  (classified model).belongs _ (Registry.get_mem inside)

theorem find?_declaration (inside : record < (final model).registry.length) :
    (final model).registry.find? (index model) ((final model).registry.get record).declaration =
      some record :=
  (classified model).find?_eq_some inside (belongs inside).declared

theorem declaration_lt (inside : record < (final model).registry.length) :
    ((final model).registry.get record).declaration < (index model).declarations.length :=
  (belongs inside).declaration_lt (bounded model)

theorem initialDeclaration_lt (inside : record < (final model).registry.length) :
    ((final model).registry.get record).initialDeclaration <
      (index model).declarations.length :=
  (belongs inside).initialDeclaration_lt (bounded model)

end Stage

end ComponentModel.Analysis
