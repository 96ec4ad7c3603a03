import ComponentModel.Proofs.Origins
import ComponentModel.Proofs.Program
import ComponentModel.Proofs.Ranking

/-!
# Generated code reads what it has set

What an explicit equation refers to has been set before it is evaluated: states and constants by
their initial values, other values by the equations that it depends on, and rates by equations of
lower rank, which the schedule evaluates first without being told to.
-/

namespace ComponentModel.Analysis

open Code (DependsOn IsConstant IsKind NeedsRates Profile Schedule Slot Statement slot?)
open Equation (Expr Role)

/-- The slot of what an equation computes. -/
def AnalysedEquation.slot? (equation : AnalysedEquation) : Option Slot :=
  Slot.of? (equation.role == .differentiated) equation.computes.type equation.computes.place

/-- The statement of an explicit equation assigns to the slot of what the equation computes. -/
theorem AnalysedModel.IsExplicit.target?_eq {analysed : AnalysedModel} {equation : AnalysedEquation}
    {declaration : Nat} {right : Expr} (explicit : analysed.IsExplicit equation declaration right) :
    Statement.target? analysed (.equation equation) = equation.slot? := by
  rw [Statement.target?, explicit.assigns]
  simp only [Option.bind_some, Code.slot?]
  rw [explicit.target]
  rfl

theorem AnalysedModel.IsExplicit.reads_eq {analysed : AnalysedModel} {equation : AnalysedEquation}
    {declaration : Nat} {right : Expr} (explicit : analysed.IsExplicit equation declaration right) :
    Statement.reads analysed (.equation equation) =
      (right.mentions .plain).filterMap (slot? analysed) := by
  rw [Statement.reads, explicit.assigns]
  rfl

/-- An explicit equation for a rate has a derivative in it. -/
theorem AnalysedModel.IsExplicit.uses_diff {analysed : AnalysedModel} {equation : AnalysedEquation}
    {declaration : Nat} {right : Expr} (explicit : analysed.IsExplicit equation declaration right)
    (isRate : equation.kind = .rate) : equation.expr.uses .diff := by
  have assigns := explicit.assigns
  unfold Expr.assignment? at assigns
  split at assigns
  case h_1 =>
    simp [AnalysedEquation.role, isRate] at assigns
  case h_2 equal => simp [equal, Expr.uses]
  case h_3 => cases assigns

namespace Stage

variable {model : Model} {place number order : Nat} {source equation : OrderedEquation}
  {item : Item} {result : AnalysedEquation} {record : Nat} {found : AnalysedVariable} {slot : Slot}

/-- What an explicit equation mentions on its right-hand side, it has always mentioned. -/
theorem ReportedAt.mentioned_of_right
    (reportedAt : ReportedAt model place number order source equation item result)
    {declaration : Nat} {right : Expr}
    (explicit : (analyse model).IsExplicit result declaration right) {mention : Role × Nat}
    (mentioned : mention ∈ right.mentions .plain) : mention ∈ source.expr.mentions .plain := by
  have inResult := Expr.mem_mentions_of_assignment explicit.assigns (Or.inr mentioned)
  rwa [reportedAt.expr, Expr.mentions_rescale _ _ _ _ (by simp)] at inResult

/-- What the right-hand side of an explicit equation refers to is something else than what the
equation computes. -/
theorem ReportedAt.gone_of_mentioned (valid : (analyse model).type.isValid)
    (reportedAt : ReportedAt model place number order source equation item result)
    {declaration : Nat} {right : Expr}
    (explicit : (analyse model).IsExplicit result declaration right) {role : Role} {other : Nat}
    (mentioned : (role, other) ∈ right.mentions .plain) (asking : role ≠ .bound)
    (bound : BoundTo model other record found) :
    Item.ofRole role record ∈ source.items ∧ Item.ofRole role record ∉ equation.items := by
  have inSource := reportedAt.mentioned_of_right explicit mentioned
  refine ⟨(ofRole_mem_items reportedAt.membership asking).mpr ⟨other, inSource, bound.recorded⟩, ?_⟩
  rw [reportedAt.ordered.single, List.mem_singleton, ← reportedAt.ofRole_role valid]
  intro same
  obtain rfl : record = item.number := by simpa using congrArg Item.number same
  obtain rfl := Item.role_eq asking same
  exact explicit.apart other mentioned ((reportedAt.binds_iff valid inSource).mpr bound.recorded)

/-! ## Where values come from -/

/-- A slot is that of a state or constant, or of what an equation computes that the equation of a
place needs. -/
def Provided (model : Model) (place : Nat) (slot : Slot) : Prop :=
  (∃ found ∈ Profile.initialised (analyse model),
      Slot.of? false found.type found.place = some slot) ∨
    ∃ needed other, NeedsRates (analyse model).equations (rankAt model) place needed ∧
      (analyse model).equations[needed]? = some other ∧ other.slot? = some slot

theorem initialised_eq (valid : (analyse model).type.isValid) :
    Profile.initialised (analyse model) = (layout model).states ++
      (layout model).otherVariables.filter fun found => found.type == .constant := by
  obtain ⟨-, -, issues, equal⟩ := analyse_eq valid
  rw [equal]
  rfl

/-- The states and constants of the layout are initialised. -/
theorem mem_initialised (valid : (analyse model).type.isValid)
    (entry : (layout model).byRecord.lookup record = some found)
    (given : found.type = .state ∨ found.type = .constant) :
    found ∈ Profile.initialised (analyse model) := by
  have placed := (isEntry entry).placed
  rw [initialised_eq valid, List.mem_append, List.mem_filter]
  rcases given with isState | isConstant
  · rw [isState] at placed
    exact Or.inl (List.mem_of_getElem? (placed (by simp)))
  · rw [isConstant] at placed
    exact Or.inr ⟨List.mem_of_getElem? (placed (by simp)), by simp [isConstant]⟩

/-- The equation that a class names is reported with the variable of the class. -/
theorem exists_reportedAt_of_named (valid : (analyse model).type.isValid)
    (named : ((final model).registry.get record).equation = some number)
    (entry : (layout model).byRecord.lookup record = some found)
    (listed : (reported model)[place]? = some number) :
    ∃ order source equation item result,
      ReportedAt model place number order source equation item result ∧ item.number = record ∧
      result.computes = found := by
  obtain ⟨order, source, equation, item, result, reportedAt⟩ :=
    exists_reportedAt_of_mem valid listed
  have same := reportedAt.number_eq named
  refine ⟨order, source, equation, item, result, reportedAt, same, ?_⟩
  have entry' := reportedAt.entry
  rw [same, entry] at entry'
  exact (Option.some.inj entry').symm

/-- A class that an equation refers to, and about which nothing is known from the start, is computed
by one of the equations that it depends on. -/
theorem ReportedAt.exists_computing (valid : (analyse model).type.isValid)
    (reportedAt : ReportedAt model place number order source equation item result)
    (entry : (layout model).byRecord.lookup record = some found)
    (asked : .value record ∈ source.items) (gone : .value record ∉ equation.items)
    (unknown : ((start model).registry.get record).kind = .unknown) :
    ∃ needed ∈ result.dependencies, ∃ number order source equation item other,
      ReportedAt model needed number order source equation item other ∧ item.number = record ∧
        other.computes = found := by
  obtain ⟨number', depends, named⟩ := Elimination.mem_dependencies_of_gone (ready model)
    (moves model) (start_getElem?.mpr reportedAt.ordered.foundSource) reportedAt.ordered.found
    asked gone unknown
  obtain ⟨equation', _, order', foundOther, ordered, -⟩ :=
    Elimination.exists_computing (ready model) (moves model) named
  obtain ⟨needed, listed, place'⟩ := reportedAt.exists_dependency depends
    (Elimination.orderOf_eq_some.mpr ⟨equation', foundOther, ordered⟩)
  obtain ⟨order', source', equation', item', other, reportedAt', same, computes⟩ :=
    exists_reportedAt_of_named valid named entry place'
  exact ⟨needed, listed, number', order', source', equation', item', other, reportedAt', same,
    computes⟩

/-- The value of a class that an equation refers to is initialised, or computed by an equation
that it depends on. -/
theorem ReportedAt.provided_value (valid : (analyse model).type.isValid)
    (reportedAt : ReportedAt model place number order source equation item result)
    (entry : (layout model).byRecord.lookup record = some found)
    (asked : .value record ∈ source.items) (gone : .value record ∉ equation.items)
    (kept : Slot.of? false found.type found.place = some slot) : Provided model place slot := by
  by_cases unknown : ((start model).registry.get record).kind = .unknown
  · obtain ⟨needed, listed, _, _, _, _, item', result', reportedAt', same, computes⟩ :=
      reportedAt.exists_computing valid entry asked gone unknown
    refine Or.inr ⟨needed, result',
      Or.inl ⟨result, result', reportedAt.found, listed, reportedAt'.found, rfl⟩,
      reportedAt'.found, ?_⟩
    obtain rfl : item' = .value record := Item.eq_of_isOpen reportedAt'.ordered.open_ unknown same
    rw [AnalysedEquation.slot?, computes, reportedAt'.role_value valid]
    exact kept
  · rcases type_of_known valid entry unknown with isIntegration | given
    · rw [isIntegration] at kept
      cases kept
    · exact Or.inl ⟨found, mem_initialised valid entry given, kept⟩

/-- The rate of a class that an equation refers to has been computed by an equation of lower rank,
and the equation is no constant. -/
theorem ReportedAt.provided_rate (valid : (analyse model).type.isValid)
    (reportedAt : ReportedAt model place number order source equation item result)
    (entry : (layout model).byRecord.lookup record = some found)
    (asked : .rate record ∈ source.items) (gone : .rate record ∉ equation.items)
    (kept : Slot.of? true found.type found.place = some slot) : Provided model place slot := by
  have foundSource := start_getElem?.mpr reportedAt.ordered.foundSource
  have progress := (Elimination.history_of_moves (ready model) (moves model)).progress number source
    equation foundSource reportedAt.ordered.found
  have differentiable := (ready model).differentiable source (List.mem_of_getElem? foundSource)
    record (OrderedEquation.rate_mem_items.mp asked)
  rcases progress.removed _ asked gone with available | ⟨other, order', named, ordered, before⟩
  -- Without an equation, only the rate of the variable of integration is available.
  · have isIntegration : ((start model).registry.get record).kind = .integrationVariable := by
      simp only [Item.isSettled, Bool.or_eq_true, beq_iff_eq] at available
      exact available.resolve_left fun placed =>
        differentiable.2 (((ready model).placed record).mp placed)
    have type := (isEntry entry).type
    rw [kind_final valid differentiable.1, isIntegration] at type
    rw [← Option.some.inj type] at kept
    cases kept
  · obtain ⟨needed, listed⟩ := exists_place ordered
    obtain ⟨_, _, _, item', result', reportedAt', same, computes⟩ :=
      exists_reportedAt_of_named valid named entry listed
    obtain rfl := Option.some.inj (reportedAt'.ordered.orderOf_eq.symm.trans ordered)
    cases item' with
    | value other =>
        obtain rfl : other = record := same
        exact absurd reportedAt'.ordered.open_ differentiable.1
    | rate other =>
        obtain rfl : other = record := same
        have isRate : result'.kind = .rate :=
          reportedAt'.kind.trans (reportedAt'.ordered.computesRate valid).1
        refine Or.inr ⟨needed, result', Or.inr ⟨fun constant => ?_,
          ⟨result', reportedAt'.found, isRate⟩, ?_⟩, reportedAt'.found, ?_⟩
        · obtain ⟨_, impossible, -⟩ := reportedAt.isFixed_of_isConstant valid constant asked gone
          cases impossible
        · rw [reportedAt.rankAt_eq, reportedAt'.rankAt_eq]
          exact before order reportedAt.ordered.order
        · rw [AnalysedEquation.slot?, computes, reportedAt'.role_rate valid]
          exact kept

/-- Whatever the right-hand side of an explicit equation refers to is provided. -/
theorem ReportedAt.provided (valid : (analyse model).type.isValid)
    (reportedAt : ReportedAt model place number order source equation item result)
    {declaration : Nat} {right : Expr}
    (explicit : (analyse model).IsExplicit result declaration right)
    (read : slot ∈ Statement.reads (analyse model) (.equation result)) :
    Provided model place slot := by
  rw [explicit.reads_eq, List.mem_filterMap] at read
  obtain ⟨⟨role, other⟩, mentioned, kept⟩ := read
  have inSource := reportedAt.mentioned_of_right explicit mentioned
  obtain ⟨record, found, bound⟩ := exists_boundTo valid reportedAt.membership inSource
  rw [Code.slot?, bound.binding] at kept
  cases role with
  | bound =>
      have type := type_of_bound valid reportedAt.membership inSource bound
      simp [type, Slot.of?] at kept
  | plain =>
      obtain ⟨asked, gone⟩ := reportedAt.gone_of_mentioned valid explicit mentioned (by simp) bound
      exact reportedAt.provided_value valid bound.entry asked gone kept
  | differentiated =>
      obtain ⟨asked, gone⟩ := reportedAt.gone_of_mentioned valid explicit mentioned (by simp) bound
      exact reportedAt.provided_rate valid bound.entry asked gone kept

/-! ## Runs of the program -/

/-- What a place needs is set, once the equations of the places that it needs stand before it. -/
theorem exists_earlier {before : List Statement}
    (given : Code.Program.StartsWithNumbers (analyse model))
    (explicit : ∀ result ∈ (analyse model).equations, ∃ declaration right,
      (analyse model).IsExplicit result declaration right)
    (literals : Code.Program.literals (analyse model) ⊆ before)
    (earlier : ∀ needed, NeedsRates (analyse model).equations (rankAt model) place needed →
      ∀ other, (analyse model).equations[needed]? = some other → .equation other ∈ before)
    (provided : Provided model place slot) :
    ∃ statement ∈ before, statement.target? (analyse model) = some slot := by
  rcases provided with ⟨found, membership, kept⟩ | ⟨needed, other, needs, found, kept⟩
  · obtain ⟨statement, listed, target⟩ := Code.Program.exists_literal given membership
    exact ⟨statement, literals listed, target.trans kept⟩
  · obtain ⟨_, _, isExplicit⟩ := explicit other (List.mem_of_getElem? found)
    exact ⟨.equation other, earlier needed needs other found, isExplicit.target?_eq.trans kept⟩

/-- The code of a model whose equations are explicit never reads an element of an array that has
not been set: when the statements of its procedures run in the order in which the procedures are
called, every element that a statement reads is assigned by an earlier one. -/
theorem program_reads_what_is_set (model : Model) (valid : (analyse model).type.isValid)
    (timed : (analyse model).type = .ode ∨
      ∀ result ∈ (analyse model).equations, result.expr.uses .diff = false)
    (given : Code.Program.StartsWithNumbers (analyse model))
    (explicit : ∀ result ∈ (analyse model).equations, ∃ declaration right,
      (analyse model).IsExplicit result declaration right) :
    (∀ profile : Profile, ∃ front, profile.implementationSections (analyse model) = front ++
      (Code.Program.procedures (analyse model)).map fun procedure =>
        profile.procedure procedure.1 (Code.Program.text (analyse model) profile procedure.2)) ∧
    ∀ before statement after,
      Code.Program.statements (analyse model) = before ++ statement :: after →
        ∀ slot ∈ statement.reads (analyse model),
          ∃ earlier ∈ before, earlier.target? (analyse model) = some slot := by
  refine ⟨Code.Program.sections_eq (analyse model), ?_⟩
  intro before statement after equal slot read
  have ranked := ranked valid
  have timed : (analyse model).type = .ode ∨
      ∀ place, ¬IsKind (analyse model).equations .rate place := by
    refine timed.imp_right fun underived place => ?_
    rintro ⟨result, found, isRate⟩
    have membership := List.mem_of_getElem? found
    obtain ⟨declaration, right, isExplicit⟩ := explicit result membership
    have derived := isExplicit.uses_diff isRate
    rw [underived result membership] at derived
    cases derived
  obtain ⟨earlyComplete, evaluated⟩ := Schedule.early_spec ranked timed
  have otherComplete := Schedule.otherVariables_spec ranked timed
  have provided {place : Nat} {result : AnalysedEquation}
      (found : (analyse model).equations[place]? = some result)
      (read : slot ∈ Statement.reads (analyse model) (.equation result)) :
      Provided model place slot := by
    obtain ⟨_, _, isExplicit⟩ := explicit result (List.mem_of_getElem? found)
    obtain ⟨_, _, _, _, _, reportedAt⟩ := exists_reportedAt valid found
    exact reportedAt.provided valid isExplicit read
  rw [Code.Program.statements_eq given] at equal
  rcases Code.Program.split_append equal with ⟨rest, initial⟩ | ⟨middle, rfl, equations⟩
  · have isLiteral : statement ∈ Code.Program.literals (analyse model) := by simp [initial]
    rw [Code.Program.reads_of_mem_literals isLiteral] at read
    cases read
  rcases Code.Program.split_append equations with ⟨rest, early⟩ | ⟨middle, rfl, other⟩
  · obtain ⟨front, place, back, result, places, found, rfl, rfl⟩ :=
      Code.Program.split_equations early
    refine exists_earlier given explicit (List.subset_append_left _ _) ?_ (provided found read)
    intro needed needs result foundNeeded
    exact List.mem_append_right _ (Code.Program.mem_equations foundNeeded
      (earlyComplete front place back places needed needs))
  · obtain ⟨front, place, back, result, places, found, rfl, rfl⟩ :=
      Code.Program.split_equations other
    refine exists_earlier given explicit (List.subset_append_left _ _) ?_ (provided found read)
    intro needed needs result foundNeeded
    refine List.mem_append_right _ ?_
    by_cases isEarly : needed ∈ (Schedule.ofModel (analyse model)).early
    · exact List.mem_append_left _ (Code.Program.mem_equations foundNeeded isEarly)
    · refine List.mem_append_right _ (Code.Program.mem_equations foundNeeded ?_)
      rcases needs with depends | ⟨-, isRate, -⟩
      · exact otherComplete front place back places needed ⟨depends, isEarly⟩
      · exact absurd (evaluated needed (Or.inr isRate)) isEarly

/-- Growth by a rate that is a variable of its own: `y = x`, and `y` is the derivative of `x`. -/
def growth : Model :=
  single "growth"
    [⟨"t", "second", none, none⟩, ⟨"x", "dimensionless", some (.number 1), none⟩,
      ⟨"y", "dimensionless", none, none⟩]
    ("<math><apply><eq/><ci>y</ci><ci>x</ci></apply>" ++
      "<apply><eq/><apply><diff/><bvar><ci>t</ci></bvar><ci>x</ci></apply>" ++
      "<ci>y</ci></apply></math>")

theorem gathered_growth : Gathered.ofIndex (index growth) =
    ⟨[⟨2, 2, 2, .unknown, none, none⟩, ⟨1, 1, 1, .constant, none, none⟩,
      ⟨0, 0, 0, .unknown, none, none⟩],
      [.new (.apply .assignment (.reference 2) (.reference 1)) 0 [0, 1] [],
       .new (.apply .assignment (.apply .diff (.apply .bvar (.reference 0) .absent) (.reference 1))
        (.reference 2)) 0 [0] [1]], []⟩ := by
  cbv

theorem derivatives_growth : derivatives growth =
    ⟨⟨[⟨2, 2, 2, .unknown, none, none⟩, ⟨1, 1, 1, .state, none, none⟩,
      ⟨0, 0, 0, .integrationVariable, none, none⟩],
      (Gathered.ofIndex (index growth)).equations, []⟩, some 0⟩ := by
  rw [derivatives, gathered_growth]
  cbv

theorem registry_growth : (final growth).registry =
    [⟨2, 2, 2, .algebraic, some 0, some 0⟩, ⟨1, 1, 1, .state, some 0, some 1⟩,
     ⟨0, 0, 0, .integrationVariable, none, none⟩] := by
  rw [final, start, derivatives_growth, gathered_growth]
  cbv

theorem reported_growth : reported growth = [1, 0] := by
  rw [reported, final, start, derivatives_growth, gathered_growth]
  cbv

theorem type_growth : (analyse growth).type = .ode := by
  have gathered : (Gathered.ofIndex (index growth)).issues = [] := by rw [gathered_growth]
  have derived : (derivatives growth).gathered.issues = [] := by rw [derivatives_growth]
  rw [type_analyse gathered derived, registry_growth, derivatives_growth]
  rfl

theorem valid_growth : (analyse growth).type.isValid := by
  rw [type_growth]
  rfl

theorem startsWithNumbers_growth : Code.Program.StartsWithNumbers (analyse growth) := by
  have initial : (Profile.initialised (analyse growth)).map
      (fun found => found.initial.initialValue) = [some (.number 1)] := by
    rw [initialised_eq valid_growth, layout, registry_growth]
    cbv
  intro found membership
  have only := List.mem_map_of_mem (f := fun found => found.initial.initialValue) membership
  rw [initial, List.mem_singleton] at only
  rw [only]
  rfl

/-- The first equation of the model assigns to `y`, which nothing else settles. -/
theorem assignsOpen_growth_value : AssignsOpen growth 0
    (.apply .assignment (.reference 2) (.reference 1)) .plain 2 0 (.reference 1) where
  assigns := rfl
  recorded := by rw [registry_growth]; cbv
  needed := by
    have open_ : ((start growth).registry.get 0).kind = .unknown := by
      rw [start, derivatives_growth, gathered_growth]
      cbv
    exact not_settledElsewhere open_ (by rw [registry_growth]; rfl)
  unscaled := by
    intro _
    have recorded : (final growth).registry.find? (index growth) 2 = some 0 := by
      rw [registry_growth]
      cbv
    refine rule_eq_none recorded ?_
    rw [registry_growth]
    rfl
  apart := by
    intro other mentioned
    obtain rfl : other = 1 := by simpa [Expr.mentions] using mentioned
    rw [registry_growth]
    exact fun equal => by cases equal

/-- The second equation of the model assigns to the rate of `x`. -/
theorem assignsOpen_growth_rate : AssignsOpen growth 1
    (.apply .assignment (.apply .diff (.apply .bvar (.reference 0) .absent) (.reference 1))
      (.reference 2)) .differentiated 1 1 (.reference 2) where
  assigns := rfl
  recorded := by rw [registry_growth]; cbv
  needed := by
    have open_ : ((start growth).registry.get 1).kind = .state := by
      rw [start, derivatives_growth, gathered_growth]
      cbv
    exact not_settledElsewhere open_ (by rw [registry_growth]; rfl)
  unscaled := by simp
  apart := by simp [Expr.mentions]

/-- The two equations of the model that are reported. -/
theorem source_growth
    (reportedAt : ReportedAt growth place number order source equation item result) :
    (number = 1 ∧ source.expr = .apply .assignment
        (.apply .diff (.apply .bvar (.reference 0) .absent) (.reference 1)) (.reference 2)) ∨
      (number = 0 ∧ source.expr = .apply .assignment (.reference 2) (.reference 1)) := by
  have foundSource := reportedAt.ordered.foundSource
  have listed := List.mem_of_getElem? reportedAt.listed
  rw [reported_growth] at listed
  rw [built, gathered_growth] at foundSource
  rcases List.mem_pair.mp listed with rfl | rfl
  · exact .inl ⟨rfl, congrArg OrderedEquation.expr (Option.some.inj foundSource).symm⟩
  · exact .inr ⟨rfl, congrArg OrderedEquation.expr (Option.some.inj foundSource).symm⟩

theorem isExplicit_growth : ∀ result ∈ (analyse growth).equations, ∃ declaration right,
    (analyse growth).IsExplicit result declaration right := by
  intro result isEquation
  obtain ⟨_, _, _, _, _, _, reportedAt⟩ :=
    exists_reportedAt_of_mem_equations valid_growth isEquation
  rcases source_growth reportedAt with ⟨rfl, expr⟩ | ⟨rfl, expr⟩
  · exact ⟨_, reportedAt.isExplicit valid_growth (expr ▸ assignsOpen_growth_rate)⟩
  · exact ⟨_, reportedAt.isExplicit valid_growth (expr ▸ assignsOpen_growth_value)⟩

/-- A model with a time, in which the equation of the rate is listed before the one that it depends
on, and evaluated after it. -/
theorem growth_reads_what_is_set :
    (analyse growth).type = .ode ∧ ∀ before statement after,
      Code.Program.statements (analyse growth) = before ++ statement :: after →
        ∀ slot ∈ statement.reads (analyse growth),
          ∃ earlier ∈ before, earlier.target? (analyse growth) = some slot :=
  ⟨type_growth, (program_reads_what_is_set growth valid_growth (Or.inl type_growth)
    startsWithNumbers_growth isExplicit_growth).2⟩

end Stage

end ComponentModel.Analysis
