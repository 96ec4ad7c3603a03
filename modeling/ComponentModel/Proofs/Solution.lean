import ComponentModel.Proofs.Arena.InPlace
import ComponentModel.Proofs.Derivatives
import ComponentModel.Proofs.Elimination.Places
import ComponentModel.Proofs.Layout
import ComponentModel.Proofs.Numbering

/-!
# Models that can be solved

The stages of an analysis by name, and what is known of them once the analysis has come to a model
that can be solved: no structural issue has been found, every class has a role, and all equations
that have been given an order are reported.
-/

namespace ComponentModel.Analysis

/-! ## Declarations -/

/-- A name that is found is that of a declaration of the model. -/
theorem lookup?_lt {model : Model} {component declaration : Nat} {name : String}
    (found : (Index.ofModel model).lookup? component name = some declaration) :
    declaration < (Index.ofModel model).declarations.length := by
  obtain ⟨declaring, numbered, -⟩ := Option.bind_eq_some_iff.mp found
  have declares := Index.declares_lookup numbered name
  rw [found] at declares
  generalize declaring.findVariable name = declared? at declares
  cases declares with
  | some declares => exact (List.getElem?_eq_some_iff.mp declares).1

/-! ## Stages -/

namespace Stage

/-- A model of one component with some variables and the equations of a document. -/
def single (name : String) (declarations : List Variable) (math : String) : Model where
  schema := "1.0"
  name
  units := []
  components := [{ name := "c", declarations, math := some math, components := [], source := none }]
  connections := []

/-- The numbered declarations of a model. -/
def index (model : Model) : Index :=
  .ofModel model

/-- The equations that are read from a model, in the order of the tree. -/
def built (model : Model) : List OrderedEquation :=
  (Gathered.ofIndex (index model)).equations

/-- What is known after a look at all derivatives. -/
def derivatives (model : Model) : Differentiated :=
  .ofGathered (index model) (Gathered.ofIndex (index model))

/-- The elimination before its first pass. -/
def start (model : Model) : Elimination :=
  startOfElimination (derivatives model).gathered
    (byName (index model) (derivatives model).gathered.registry)

/-- The elimination after its last pass. -/
def final (model : Model) : Elimination :=
  (start model).run (index model)

/-- The variables of a model laid out. -/
def layout (model : Model) : VariableLayout :=
  .ofRegistry (index model) (final model).registry

/-- The factors of the declarations. -/
def rule (model : Model) : Equation.FactorRule :=
  factorRule (index model) (final model).registry
    (Units.Registry.ofDefinitions model.units).toOption

/-- The numbers of the equations that are reported, in the order of the report. -/
def reported (model : Model) : List Nat :=
  equationOrder (final model)

variable (model : Model)

theorem ready : Elimination.Start (start model) :=
  (prepared_ofGathered (index model)).start (index model)

theorem moves :
    Relation.ReflTransGen (Elimination.Move (index model)) (start model) (final model) :=
  Elimination.moves_run

theorem start_equations : (start model).equations = built model :=
  (Derived.ofGathered (index model) (Gathered.sound_ofIndex (index model))).equations

/-- The record of a declaration is the one that was made when its class was met. -/
theorem find?_final (declaration : Nat) :
    (final model).registry.find? (index model) declaration =
      (Gathered.ofIndex (index model)).registry.find? (index model) declaration := by
  have derived := Derived.ofGathered (index model) (Gathered.sound_ofIndex (index model))
  refine Registry.find?_congr (index model) declaration ?_
  rw [Elimination.representatives_of_moves (moves model), ← derived.representatives]
  exact representatives_startOfElimination (index model) (derivatives model).gathered

/-- The references of an equation are those that its expression mentions. -/
theorem refers {equation : OrderedEquation} (membership : equation ∈ built model) :
    Refers (index model) (final model).registry (equation.expr.mentions .plain)
      ⟨equation.plain, equation.differentiated⟩ := by
  refine ((Gathered.sound_ofIndex (index model)).refers equation membership).mono ?_
  intro declaration number found
  rwa [find?_final]

variable {model}

theorem valid_of_ode (timed : (analyse model).type = .ode) : (analyse model).type.isValid := by
  rw [timed]
  rfl

/-- A model that can be solved went through all stages. -/
theorem analyse_eq (valid : (analyse model).type.isValid) :
    (derivatives model).gathered.issues = [] ∧
      (typeOf (final model).registry (derivatives model).integration.isSome).isValid ∧
      ∃ issues, analyse model =
        solved (typeOf (final model).registry (derivatives model).integration.isSome)
          (Units.Registry.ofDefinitions model.units).toOption (index model) issues
          (final model) := by
  unfold analyse at valid ⊢
  simp only at valid ⊢
  split at valid
  case isTrue => cases valid
  case isFalse unblamed =>
    rw [if_neg unblamed]
    split at valid
    case isTrue => cases valid
    case isFalse derivedUnblamed =>
      rw [if_neg derivedUnblamed]
      unfold classify at valid ⊢
      simp only at valid ⊢
      split at valid
      case isFalse unsolvable => exact absurd valid unsolvable
      case isTrue solvable =>
        rw [if_pos solvable]
        exact ⟨by simpa [derivatives, index] using derivedUnblamed, solvable, _, rfl⟩

/-- Without structural issues, the analysis ends with a classification. -/
theorem analyse_eq_classify (gathered : (Gathered.ofIndex (index model)).issues = [])
    (derived : (derivatives model).gathered.issues = []) :
    analyse model = classify (Units.Registry.ofDefinitions model.units).toOption (index model)
      (derivatives model) := by
  have gathered : (Gathered.ofIndex (Index.ofModel model)).issues = [] := gathered
  have derived : (Differentiated.ofGathered (Index.ofModel model)
      (Gathered.ofIndex (Index.ofModel model))).gathered.issues = [] := derived
  simp only [analyse, gathered, derived, List.isEmpty_nil, Bool.not_true, Bool.false_eq_true,
    if_false]
  rfl

/-- Without structural issues, the records that are left give the type. -/
theorem type_analyse (gathered : (Gathered.ofIndex (index model)).issues = [])
    (derived : (derivatives model).gathered.issues = []) :
    (analyse model).type =
      typeOf (final model).registry (derivatives model).integration.isSome := by
  rw [analyse_eq_classify gathered derived]
  unfold classify
  simp only
  split <;> rfl

/-- In a model that can be solved every class has a role. -/
theorem role_of_valid (valid : (analyse model).type.isValid) {number : Nat}
    (inside : number < (final model).registry.length) :
    ∃ type, VariableType.ofKind? ((final model).registry.get number).kind = some type := by
  obtain ⟨-, solvable, -⟩ := analyse_eq valid
  have member := Registry.get_mem inside
  unfold typeOf at solvable
  simp only at solvable
  split at solvable
  case h_1 => cases solvable
  case h_2 => cases solvable
  case h_3 => cases solvable
  case h_4 tooFew tooMany =>
    rw [List.any_eq_false] at tooFew tooMany
    have few := tooFew _ member
    have many := tooMany _ member
    cases kind : ((final model).registry.get number).kind <;>
      simp_all [VariableType.ofKind?]

/-- The equations of a model that can be solved. -/
theorem equations_eq (valid : (analyse model).type.isValid) :
    (analyse model).equations = (reported model).filterMap fun number =>
      (final model).equations[number]?.bind
        (reportEquation (rule model) (layout model) (reported model)) := by
  obtain ⟨-, -, issues, equal⟩ := analyse_eq valid
  rw [equal]
  rfl

theorem kind_ne_overconstrained (valid : (analyse model).type.isValid) (number : Nat) :
    ((final model).registry.get number).kind ≠ .overconstrained := by
  intro marked
  by_cases inside : number < (final model).registry.length
  · obtain ⟨type, role⟩ := role_of_valid valid inside
    rw [marked] at role
    cases role
  · rw [Registry.get_of_length_le (Nat.le_of_not_lt inside)] at marked
    cases marked

/-! ## Ordered equations and reported ones -/

/-- An equation that has been given an order, and the item that it computes. -/
structure Ordered (model : Model) (number order : Nat) (source equation : OrderedEquation)
    (item : Item) : Prop where
  foundSource : (built model)[number]? = some source
  found : (final model).equations[number]? = some equation
  order : equation.order = some order
  single : equation.items = [item]
  computes : equation.computes = some item.number
  named : ((final model).registry.get item.number).equation = some number
  asked : item ∈ source.items
  open_ : item.IsOpen (start model).registry
  expr : equation.expr = source.expr

variable {number place : Nat}

theorem start_getElem? {source : OrderedEquation} :
    (start model).equations[number]? = some source ↔ (built model)[number]? = some source := by
  rw [start_equations]

theorem exists_ordered {equation : OrderedEquation}
    (found : (final model).equations[number]? = some equation) (done : equation.order.isSome) :
    ∃ order source item, Ordered model number order source equation item := by
  obtain ⟨order, ordered⟩ := Option.isSome_iff_exists.mp done
  obtain ⟨source, foundSource, expr, -, items⟩ :=
    Elimination.origin_of_moves (moves model) found
  have history := Elimination.history_of_moves (ready model) (moves model)
  have progress := history.progress number source equation foundSource found
  obtain ⟨-, item, single, computes, named, open_⟩ := progress.ordered order ordered
  exact ⟨order, source, item, start_getElem?.mp foundSource, found, ordered, single, computes,
    named, items.subset (by simp [single]), open_, expr⟩

/-- An equation that is reported at a place. -/
structure ReportedAt (model : Model) (place number order : Nat)
    (source equation : OrderedEquation) (item : Item) (result : AnalysedEquation) : Prop where
  ordered : Ordered model number order source equation item
  listed : (reported model)[place]? = some number
  found : (analyse model).equations[place]? = some result
  entry : (layout model).byRecord.lookup item.number = some result.computes
  kind : result.kind = equation.kind
  expr : result.expr = source.expr.rescale (rule model) false
  dependencies : result.dependencies = equation.dependencies.filterMap fun other =>
    (reported model).idxOf? other

/-- Every record of a model that can be solved has an entry. -/
theorem exists_entry (valid : (analyse model).type.isValid)
    (inside : number < (final model).registry.length) :
    ∃ found, (layout model).byRecord.lookup number = some found := by
  obtain ⟨type, role⟩ := role_of_valid valid inside
  have laidOut := VariableLayout.laidOut_ofRegistry (index model) (final model).registry
  exact Option.isSome_iff_exists.mp
    (laidOut.complete number (VariableLayout.mem_order.mpr inside) (by simp [role]))

/-- The report of an equation that has been given an order. -/
theorem exists_report (valid : (analyse model).type.isValid) {order : Nat}
    {source equation : OrderedEquation} {item : Item}
    (ordered : Ordered model number order source equation item) :
    ∃ result, ((final model).equations[number]?.bind
        (reportEquation (rule model) (layout model) (reported model))) = some result ∧
      (layout model).byRecord.lookup item.number = some result.computes ∧
      result.kind = equation.kind ∧ result.expr = source.expr.rescale (rule model) false ∧
      result.dependencies = equation.dependencies.filterMap fun other =>
        (reported model).idxOf? other := by
  have inside : item.number < (final model).registry.length := by
    rw [Elimination.length_registry_of_moves (moves model)]
    exact (ready model).inside source
      (List.mem_of_getElem? (start_getElem?.mpr ordered.foundSource)) item ordered.asked
  obtain ⟨entry, found⟩ := exists_entry valid inside
  simp [ordered.found, reportEquation, ordered.computes, found, ordered.expr,
    Equation.Expr.scaledInPlace_eq]

/-- What stands at a place of the report is the report of the equation that is listed there. -/
theorem getElem?_equations (valid : (analyse model).type.isValid)
    (listed : (reported model)[place]? = some number) :
    (analyse model).equations[place]? = (final model).equations[number]?.bind
      (reportEquation (rule model) (layout model) (reported model)) := by
  have every : ∀ number ∈ reported model, ((final model).equations[number]?.bind
      (reportEquation (rule model) (layout model) (reported model))).isSome := by
    intro number membership
    obtain ⟨equation, found, done⟩ := mem_equationOrder.mp membership
    obtain ⟨order, source, item, ordered⟩ := exists_ordered found done
    obtain ⟨result, report, -⟩ := exists_report valid ordered
    exact Option.isSome_of_eq_some report
  rw [equations_eq valid, getElem?_filterMap_of_isSome every, listed]
  rfl

/-- Every reported equation has been given an order. -/
theorem exists_reportedAt_of_mem (valid : (analyse model).type.isValid)
    (listed : (reported model)[place]? = some number) :
    ∃ order source equation item result,
      ReportedAt model place number order source equation item result := by
  obtain ⟨equation, found, done⟩ := mem_equationOrder.mp (List.mem_of_getElem? listed)
  obtain ⟨order, source, item, ordered⟩ := exists_ordered found done
  obtain ⟨result, report, entry, kind, expr, dependencies⟩ := exists_report valid ordered
  exact ⟨order, source, equation, item, result, ordered, listed,
    (getElem?_equations valid listed).trans report, entry, kind, expr, dependencies⟩

/-- What is reported at a place is an equation with an order. -/
theorem exists_reportedAt (valid : (analyse model).type.isValid) {result : AnalysedEquation}
    (found : (analyse model).equations[place]? = some result) :
    ∃ number order source equation item,
      ReportedAt model place number order source equation item result := by
  have bounded : place < (reported model).length := by
    have inside := (List.getElem?_eq_some_iff.mp found).1
    rw [equations_eq valid] at inside
    exact Nat.lt_of_lt_of_le inside (List.length_filterMap_le _ _)
  obtain ⟨order, source, equation, item, other, reportedAt⟩ :=
    exists_reportedAt_of_mem valid (List.getElem?_eq_getElem bounded)
  obtain rfl := Option.some.inj (found.symm.trans reportedAt.found)
  exact ⟨_, order, source, equation, item, reportedAt⟩

theorem exists_reportedAt_of_mem_equations (valid : (analyse model).type.isValid)
    {result : AnalysedEquation} (isEquation : result ∈ (analyse model).equations) :
    ∃ place number order source equation item,
      ReportedAt model place number order source equation item result := by
  obtain ⟨place, found⟩ := List.mem_iff_getElem?.mp isEquation
  exact ⟨place, exists_reportedAt valid found⟩

/-- An equation is reported with its mark. -/
theorem ReportedAt.rateBased (valid : (analyse model).type.isValid) {order : Nat}
    {source equation : OrderedEquation} {item : Item} {result : AnalysedEquation}
    (reportedAt : ReportedAt model place number order source equation item result) :
    result.rateBased = equation.rateBased := by
  have report := (getElem?_equations valid reportedAt.listed).symm.trans reportedAt.found
  simp only [reportedAt.ordered.found, Option.bind_some, reportEquation, Option.bind_eq_bind,
    Option.bind_eq_some_iff, Option.pure_def, Option.some.injEq] at report
  obtain ⟨_, -, rfl⟩ := report
  rfl

/-- As many equations are reported as have been given an order. -/
theorem length_equations (valid : (analyse model).type.isValid) :
    (analyse model).equations.length = (reported model).length := by
  apply Nat.le_antisymm
  · rw [equations_eq valid]
    exact List.length_filterMap_le _ _
  · by_contra fewer
    obtain ⟨order, source, equation, item, result, reportedAt⟩ :=
      exists_reportedAt_of_mem valid (List.getElem?_eq_getElem (Nat.lt_of_not_le fewer))
    have inside := (List.getElem?_eq_some_iff.mp reportedAt.found).1
    exact Nat.lt_irrefl _ inside

end Stage

end ComponentModel.Analysis
