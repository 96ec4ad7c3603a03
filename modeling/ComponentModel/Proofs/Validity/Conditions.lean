import ComponentModel.Proofs.Units.Resolution
import ComponentModel.Proofs.Validation
import Mathlib.Data.List.Nodup

/-!
# The conditions of a validation

A validation asks one condition of a model after the other: `Condition` names each of them with the
place that it is asked of, `Condition.Holds` says what it asks, `Condition.Reports` which fault
stands for its violation, and `Model.conditions` gives the order. A validation passes if all of them
hold, and otherwise reports the first one that is violated.
-/

namespace ComponentModel

/-! ## What is asked of a model -/

/-- Something that is asked of a model, at one place of it. -/
inductive Condition where
  | modelNamed
  | componentNamed (name : String)
  | componentDistinct (earlier : List String) (name : String)
  | unitsNew (name : String)
  | unitsDistinct (earlier : List String) (name : String)
  | unitsResolved
  /-- The component stands for none of another document. -/
  | componentWritten (declaring : Component)
  | variableNamed (declaring : Component) (declared : Variable)
  | variableDistinct (declaring : Component) (earlier : List String) (name : String)
  | unitsKnown (declared : Variable)
  | initialFound (declaring : Component) (declared : Variable)
  | mathRead (declaring : Component)
  | endFound (joined : Connection) (name : String)
  | endsDiffer (joined : Connection)
  | paired (joined : Connection)
  | endDeclared (joined : Connection) (component name : String)
  | sameDimensions (joined : Connection) (equated : VariablePair)
  /-- The connected variable has an interface. -/
  | endShown (component name : String)
  | variableUsed (declaring : Component) (name : String)

/-- Whether an element is one of these, or somewhere inside one of them. -/
inductive Markup.Inside (roots : List Markup.Element) : Markup.Element → Prop
  | root {element : Markup.Element} (member : element ∈ roots) : Inside roots element
  | child {parent element : Markup.Element} (inside : Inside roots parent)
      (member : element ∈ parent.children) : Inside roots element

namespace Component

/-- The math of a component refers to a variable. -/
def MentionsInMath (declaring : Component) (name : String) : Prop :=
  ∃ text, declaring.math = some text ∧ ∃ roots, Markup.readMath text = .ok roots ∧
    ∃ element, Markup.Inside roots element ∧ element.name = "ci" ∧ element.text = name

/-- A variable of a component has another one as its initial value. -/
def InitialisesFrom (declaring : Component) (name : String) : Prop :=
  ∃ declared ∈ declaring.declarations, Validation.initialReference declared = some name

end Component

namespace Model

/-- A connection joins a variable. -/
def Connects (model : Model) (component name : String) : Prop :=
  ∃ joined ∈ model.connections, ∃ equated ∈ joined.pairs,
    joined.first = component ∧ equated.first = name ∨
      joined.second = component ∧ equated.second = name

/-- The names of initial values count in a component with math only. -/
def Uses (model : Model) (declaring : Component) (name : String) : Prop :=
  declaring.MentionsInMath name ∨
    (∃ text, declaring.math = some text) ∧ declaring.InitialisesFrom name ∨
    model.Connects declaring.name name

/-- Two names of units mean something, and the same dimension. -/
def SameDimensions (model : Model) (one other : String) : Prop :=
  ∃ first second, Units.Denotes model.units one first ∧ Units.Denotes model.units other second ∧
    first.sameDimensions second

end Model

/-- A variable has an interface other than none. -/
def Variable.IsShown (declared : Variable) : Prop :=
  ∃ face, declared.face = some face ∧ face ≠ .none

namespace Condition

/-- What a condition asks. -/
def Holds (model : Model) : Condition → Prop
  | modelNamed => ¬Text.blank model.name
  | componentNamed name => ¬Text.blank name
  | componentDistinct earlier name => name ∉ earlier
  | unitsNew name => ¬Units.isBuiltin name
  | unitsDistinct earlier name => name ∉ earlier
  | unitsResolved => Units.WellDefined model.units
  | componentWritten declaring => declaring.source = none
  | variableNamed _ declared => ¬Text.blank declared.name
  | variableDistinct _ earlier name => name ∉ earlier
  | unitsKnown declared =>
      declared.units ∈ model.units.map UnitsDefinition.name ∨ Units.isBuiltin declared.units
  | initialFound declaring declared => ∀ name, Validation.initialReference declared = some name →
      name ∈ declaring.declarations.map Variable.name
  | mathRead declaring => ∀ text, declaring.math = some text →
      ∃ roots, Markup.readMath text = .ok roots
  | endFound _ name => name ∈ model.preorder.map Component.name
  | endsDiffer joined => joined.first ≠ joined.second
  | paired joined => joined.pairs ≠ []
  | endDeclared _ component name => (model.findVariable component name).isSome
  | sameDimensions joined equated =>
      ∃ one other, model.findVariable joined.first equated.first = some one ∧
        model.findVariable joined.second equated.second = some other ∧
        model.SameDimensions one.units other.units
  | endShown component name =>
      ∀ declared, model.findVariable component name = some declared → declared.IsShown
  | variableUsed declaring name => model.Uses declaring name

/-- The fault that stands for the violation of a condition. -/
inductive Reports (model : Model) : Condition → ModelFault → Prop
  | modelNamed : Reports model .modelNamed .unnamedModel
  | componentNamed (name : String) :
      Reports model (.componentNamed name) (.unnamedComponent model.name)
  | componentDistinct (earlier : List String) (name : String) :
      Reports model (.componentDistinct earlier name) (.duplicateComponent name)
  | unitsNew (name : String) : Reports model (.unitsNew name) (.builtinUnitsRedefined name)
  | unitsDistinct (earlier : List String) (name : String) :
      Reports model (.unitsDistinct earlier name) (.duplicateUnits name)
  | unitsResolved {cause : Units.UnitsError}
      (failed : Units.Registry.ofDefinitions model.units = .error cause) :
      Reports model .unitsResolved (.units cause)
  | componentWritten {declaring : Component} {source : ImportSource}
      (imported : declaring.source = some source) :
      Reports model (.componentWritten declaring) (.unresolvedImport declaring.name source)
  | variableNamed (declaring : Component) (declared : Variable) :
      Reports model (.variableNamed declaring declared) (.unnamedVariable declaring.name)
  | variableDistinct (declaring : Component) (earlier : List String) (name : String) :
      Reports model (.variableDistinct declaring earlier name)
        (.duplicateVariable name declaring.name)
  | unitsKnown (declared : Variable) :
      Reports model (.unitsKnown declared) (.units (.unknown declared.units))
  | initialFound (declaring : Component) {declared : Variable} {name : String}
      (refers : Validation.initialReference declared = some name) :
      Reports model (.initialFound declaring declared)
        (.undefinedVariable name declaring.name (.initialValue declared.name))
  | mathRead {declaring : Component} {text : String} {cause : Markup.MathError}
      (written : declaring.math = some text) (failed : Markup.readMath text = .error cause) :
      Reports model (.mathRead declaring) (.invalidMath declaring.name cause)
  | endFound (joined : Connection) (name : String) :
      Reports model (.endFound joined name) (.undefinedComponent name joined.first joined.second)
  | endsDiffer (joined : Connection) :
      Reports model (.endsDiffer joined) (.selfConnection joined.first)
  | paired (joined : Connection) :
      Reports model (.paired joined) (.emptyConnection joined.first joined.second)
  | endDeclared (joined : Connection) (component name : String) :
      Reports model (.endDeclared joined component name)
        (.undefinedVariable name component (.connection joined.first joined.second))
  | sameDimensions (joined : Connection) (equated : VariablePair) :
      Reports model (.sameDimensions joined equated)
        (.incompatibleConnection joined.first equated.first joined.second equated.second)
  | endShown (component name : String) :
      Reports model (.endShown component name) (.missingInterface name component)
  | variableUsed (declaring : Component) (name : String) :
      Reports model (.variableUsed declaring name) (.unusedVariable name declaring.name)

/-- What is asked of each member of a list, which may depend on the members in front of it. -/
def each {α : Type} (ask : List α → α → List Condition) :
    (earlier : List α) → List α → List Condition
  | _, [] => []
  | earlier, value :: rest => ask earlier value ++ each ask (earlier ++ [value]) rest

/-- What is asked of the name of a component. -/
def ofComponentName (earlier : List String) (name : String) : List Condition :=
  [.componentNamed name, .componentDistinct earlier name]

/-- What is asked of the name of a model and of those of its components. -/
def ofNames (model : Model) : List Condition :=
  .modelNamed :: each ofComponentName [] (model.preorder.map Component.name)

/-- What is asked of the name of a units definition. -/
def ofUnitsName (earlier : List String) (name : String) : List Condition :=
  [.unitsNew name, .unitsDistinct earlier name]

/-- What is asked of units definitions. -/
def ofUnits (model : Model) : List Condition :=
  each ofUnitsName [] (model.units.map UnitsDefinition.name) ++ [.unitsResolved]

/-- What is asked of a variable, apart from its initial value. -/
def ofVariable (declaring : Component) (earlier : List Variable) (declared : Variable) :
    List Condition :=
  [.variableNamed declaring declared,
   .variableDistinct declaring (earlier.map Variable.name) declared.name, .unitsKnown declared]

/-- What is asked of a component. -/
def ofComponent (declaring : Component) : List Condition :=
  .componentWritten declaring ::
    (each (ofVariable declaring) [] declaring.declarations ++
      declaring.declarations.map (.initialFound declaring))

/-- What is asked of a pair of a connection. The strict check also asks for interfaces. -/
def ofPair (strict : Bool) (joined : Connection) (equated : VariablePair) : List Condition :=
  [.endDeclared joined joined.first equated.first,
   .endDeclared joined joined.second equated.second, .sameDimensions joined equated] ++
    if strict then [.endShown joined.first equated.first, .endShown joined.second equated.second]
    else []

/-- What is asked of a connection. -/
def ofConnection (strict : Bool) (joined : Connection) : List Condition :=
  [.endFound joined joined.first, .endFound joined joined.second, .endsDiffer joined,
   .paired joined] ++ joined.pairs.flatMap (ofPair strict joined)

/-- What the strict check asks of the variables of a component. -/
def ofUsage (declaring : Component) : List Condition :=
  declaring.declarations.map fun declared => .variableUsed declaring declared.name

end Condition

/-- The conditions of a validation in their order: names, units, components with their variables,
math, connections, and for the strict check the use of every variable. -/
def Model.conditions (strict : Bool) (model : Model) : List Condition :=
  Condition.ofNames model ++ (Condition.ofUnits model ++
    (model.preorder.flatMap Condition.ofComponent ++ (model.preorder.flatMap ([.mathRead ·]) ++
      (model.connections.flatMap (Condition.ofConnection strict) ++
        if strict then model.preorder.flatMap Condition.ofUsage else []))))

/-! ## The first violated condition -/

section

variable {model : Model} {condition : Condition} {conditions more : List Condition}
  {fault : ModelFault}

/-- The first of the conditions that does not hold is reported as this fault. -/
inductive FirstViolated (model : Model) : List Condition → ModelFault → Prop
  | here {condition : Condition} {rest : List Condition} {fault : ModelFault}
      (violated : ¬condition.Holds model) (reports : condition.Reports model fault) :
      FirstViolated model (condition :: rest) fault
  | there {condition : Condition} {rest : List Condition} {fault : ModelFault}
      (holds : condition.Holds model) (later : FirstViolated model rest fault) :
      FirstViolated model (condition :: rest) fault

/-- A violation has one fault. -/
theorem Condition.Reports.unique {other : ModelFault} (one : condition.Reports model fault)
    (another : condition.Reports model other) : fault = other := by
  cases one with
  | unitsResolved failed =>
      cases another with
      | unitsResolved again => cases failed.symm.trans again; rfl
  | componentWritten imported =>
      cases another with
      | componentWritten again => cases imported.symm.trans again; rfl
  | initialFound _ refers =>
      cases another with
      | initialFound _ again => cases refers.symm.trans again; rfl
  | mathRead written failed =>
      cases another with
      | mathRead again failedAgain =>
          cases written.symm.trans again
          cases failed.symm.trans failedAgain
          rfl
  | _ => cases another; rfl

namespace FirstViolated

theorem exists_violated (first : FirstViolated model conditions fault) :
    ∃ before condition after, conditions = before ++ condition :: after ∧
      (∀ earlier ∈ before, earlier.Holds model) ∧ ¬condition.Holds model ∧
      condition.Reports model fault := by
  induction first with
  | @here condition rest _ violated reports =>
      exact ⟨[], condition, rest, rfl, by simp, violated, reports⟩
  | @there passed rest _ holds _ ih =>
      obtain ⟨before, condition, after, rfl, all, violated, reports⟩ := ih
      exact ⟨passed :: before, condition, after, rfl, List.forall_mem_cons.mpr ⟨holds, all⟩,
        violated, reports⟩

theorem not_all (first : FirstViolated model conditions fault) :
    ¬∀ condition ∈ conditions, condition.Holds model := by
  obtain ⟨before, condition, after, rfl, -, violated, -⟩ := first.exists_violated
  exact fun all => violated (all condition (by simp))

theorem unique {other : ModelFault} (one : FirstViolated model conditions fault)
    (another : FirstViolated model conditions other) : fault = other := by
  induction one with
  | here violated reports =>
      cases another with
      | here _ again => exact reports.unique again
      | there holds _ => exact absurd holds violated
  | there holds _ ih =>
      cases another with
      | here violated _ => exact absurd holds violated
      | there _ later => exact ih later

theorem append_iff : FirstViolated model (conditions ++ more) fault ↔
    FirstViolated model conditions fault ∨
      (∀ condition ∈ conditions, condition.Holds model) ∧ FirstViolated model more fault := by
  induction conditions with
  | nil => simp [show ¬FirstViolated model [] fault from nofun]
  | cons condition rest ih =>
      rw [List.cons_append, List.forall_mem_cons]
      constructor
      · intro first
        cases first with
        | here violated reports => exact .inl (.here violated reports)
        | there holds later =>
            rcases ih.mp later with inside | ⟨all, behind⟩
            · exact .inl (.there holds inside)
            · exact .inr ⟨⟨holds, all⟩, behind⟩
      · rintro (first | ⟨⟨holds, all⟩, behind⟩)
        · cases first with
          | here violated reports => exact .here violated reports
          | there holds later => exact .there holds (ih.mpr (.inl later))
        · exact .there holds (ih.mpr (.inr ⟨all, behind⟩))

end FirstViolated

/-! ## Checks of conditions -/

/-- A check passes only if all conditions hold, and otherwise reports the first one violated. -/
structure Decides {α : Type} (model : Model) (conditions : List Condition)
    (outcome : Except ModelFault α) : Prop where
  passes {value : α} : outcome = .ok value → ∀ condition ∈ conditions, condition.Holds model
  fails {fault : ModelFault} : outcome = .error fault → FirstViolated model conditions fault

namespace Decides

variable {α β : Type} {first : Except ModelFault α} {next : α → Except ModelFault β}

theorem error_iff {outcome : Except ModelFault α} (decides : Decides model conditions outcome) :
    outcome = .error fault ↔ FirstViolated model conditions fault := by
  refine ⟨decides.fails, fun violated => ?_⟩
  cases outcome with
  | error other => rw [violated.unique (decides.fails rfl)]
  | ok value => exact absurd (decides.passes rfl) violated.not_all

theorem ok_iff {outcome : Except ModelFault α} (decides : Decides model conditions outcome) :
    (∃ value, outcome = .ok value) ↔ ∀ condition ∈ conditions, condition.Holds model := by
  refine ⟨fun ⟨_, passed⟩ => decides.passes passed, fun all => ?_⟩
  cases outcome with
  | error fault => exact absurd all (decides.fails rfl).not_all
  | ok value => exact ⟨value, rfl⟩

/-- Nothing is asked where nothing is checked. -/
theorem pass (value : α) : Decides model [] (.ok value : Except ModelFault α) :=
  ⟨fun _ => by simp, nofun⟩

/-- A condition that is known to hold needs no check. -/
theorem known {outcome : Except ModelFault α} (holds : condition.Holds model)
    (decides : Decides model conditions outcome) :
    Decides model (condition :: conditions) outcome :=
  ⟨fun passed => List.forall_mem_cons.mpr ⟨holds, decides.passes passed⟩,
    fun failed => .there holds (decides.fails failed)⟩

/-- A condition that is known to be violated is reported at once. -/
theorem refuse (violated : ¬condition.Holds model) (reports : condition.Reports model fault) :
    Decides model (condition :: conditions) (.error fault : Except ModelFault α) where
  passes := nofun
  fails failed := by
    obtain rfl := Except.error.inj failed
    exact .here violated reports

/-- What is checked later may rely on what has passed before. -/
theorem bind (decides : Decides model conditions first)
    (later : ∀ value, first = .ok value → (∀ condition ∈ conditions, condition.Holds model) →
      Decides model more (next value)) : Decides model (conditions ++ more) (first >>= next) where
  passes passed := by
    obtain ⟨value, here, passed⟩ := bind_eq_ok passed
    have all := decides.passes here
    exact List.forall_mem_append.mpr ⟨all, (later value here all).passes passed⟩
  fails failed := by
    rcases bind_eq_error failed with here | ⟨value, here, failed⟩
    · exact FirstViolated.append_iff.mpr (.inl (decides.fails here))
    · have all := decides.passes here
      exact FirstViolated.append_iff.mpr (.inr ⟨all, (later value here all).fails failed⟩)

/-- A requirement in front of a check. -/
theorem require {test : Bool} {next : Unit → Except ModelFault β}
    (asks : test = true ↔ condition.Holds model) (reports : condition.Reports model fault)
    (later : condition.Holds model → Decides model more (next ())) :
    Decides model (condition :: more) (Validation.require test fault >>= next) := by
  have decides : Decides model [condition] (Validation.require test fault) := by
    refine ⟨fun passed => ?_, fun failed => ?_⟩
    · rw [List.forall_mem_singleton]
      exact asks.mp (Validation.require_ok passed)
    · obtain ⟨refused, rfl⟩ := Validation.require_error failed
      exact .here (fun holds => by simp [asks.mpr holds] at refused) reports
  exact decides.bind fun _ _ all => later (List.forall_mem_singleton.mp all)

/-- A requirement that nothing follows. -/
theorem require_last {test : Bool} (asks : test = true ↔ condition.Holds model)
    (reports : condition.Reports model fault) :
    Decides model [condition] (Validation.require test fault) := by
  have decides : Decides model [condition] (Validation.require test fault >>= Except.ok) :=
    .require asks reports fun _ => .pass ()
  rwa [show (Validation.require test fault >>= Except.ok) = Validation.require test fault by
    cases test <;> rfl] at decides

theorem forEach {check : α → Except ModelFault Unit} {ask : α → List Condition} {values : List α}
    (decides : ∀ value ∈ values, Decides model (ask value) (check value)) :
    Decides model (values.flatMap ask) (Validation.forEach check values) := by
  induction values with
  | nil => exact .pass ()
  | cons value rest ih =>
      obtain ⟨here, later⟩ := List.forall_mem_cons.mp decides
      rw [List.flatMap_cons]
      exact here.bind fun _ _ _ => ih later

theorem collect {check : α → Except ModelFault (List UsedVariable)} {ask : α → List Condition}
    {values : List α} (decides : ∀ value ∈ values, Decides model (ask value) (check value)) :
    Decides model (values.flatMap ask) (Validation.collect check values) := by
  induction values with
  | nil => exact .pass []
  | cons value rest ih =>
      obtain ⟨here, later⟩ := List.forall_mem_cons.mp decides
      rw [List.flatMap_cons]
      refine here.bind fun part _ _ => ?_
      have last := (ih later).bind fun others _ _ => .pass (part ++ others)
      rwa [List.append_nil] at last

end Decides

end

end ComponentModel
