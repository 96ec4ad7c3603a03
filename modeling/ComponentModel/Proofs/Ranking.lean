import ComponentModel.Proofs.Explicit
import ComponentModel.Proofs.Scheduling

/-!
# Ranks of reported equations

A reported equation ranks by the order that it has been given. What it depends on has been ordered
before it, and so have the rates that it refers to, although these are no dependencies. Among the
rates and among the algebraic variables, the report lists equations by their ranks.
-/

namespace ComponentModel.Analysis

open Code (DependsOn IsKind IsConstant Ranked NeedsRates)

/-! ## Orders -/

/-- As many equations are listed as have been given an order. -/
theorem length_equationOrder (state : Elimination) :
    (equationOrder state).length = state.orderedCount := by
  have listed : (List.range state.equations.length).map (state.equations[·]?) =
      state.equations.map some := by
    apply List.ext_getElem?
    intro place
    by_cases inside : place < state.equations.length <;> simp [inside]
  unfold equationOrder Elimination.orderedCount
  rw [List.length_mergeSort, ← List.countP_eq_length_filter]
  calc (List.range state.equations.length).countP _
      = ((List.range state.equations.length).map (state.equations[·]?)).countP
          fun found => (found.bind OrderedEquation.order).isSome := by rw [List.countP_map]; rfl
    _ = state.equations.countP fun equation => equation.order.isSome := by
        rw [listed, List.countP_map]
        rfl

namespace Stage

variable {model : Model} {place number order : Nat} {source equation : OrderedEquation}
  {item : Item} {result : AnalysedEquation}

/-- The order of the equation that is reported at a place. -/
def rankAt (model : Model) (place : Nat) : Nat :=
  ((reported model)[place]?.bind (final model).orderOf).getD 0

theorem Ordered.orderOf_eq (ordered : Ordered model number order source equation item) :
    (final model).orderOf number = some order :=
  Elimination.orderOf_eq_some.mpr ⟨equation, ordered.found, ordered.order⟩

theorem ReportedAt.rankAt_eq
    (reportedAt : ReportedAt model place number order source equation item result) :
    rankAt model place = order := by
  simp [rankAt, reportedAt.listed, reportedAt.ordered.orderOf_eq]

theorem ReportedAt.rank_lt (valid : (analyse model).type.isValid)
    (reportedAt : ReportedAt model place number order source equation item result) :
    rankAt model place < (analyse model).equations.length := by
  rw [reportedAt.rankAt_eq, length_equations valid, reported, length_equationOrder]
  exact Elimination.order_lt_orderedCount (ready model) (moves model) reportedAt.ordered.orderOf_eq

/-- An equation with an order is reported at some place. -/
theorem exists_place (ordered : (final model).orderOf number = some order) :
    ∃ place : Nat, (reported model)[place]? = some number := by
  obtain ⟨equation, found, done⟩ := Elimination.orderOf_eq_some.mp ordered
  have membership : number ∈ reported model :=
    mem_equationOrder.mpr ⟨equation, found, Option.isSome_of_eq_some done⟩
  exact List.mem_iff_getElem?.mp membership

/-! ## Kinds -/

theorem ReportedAt.isKind
    (reportedAt : ReportedAt model place number order source equation item result) :
    IsKind (analyse model).equations result.kind place :=
  ⟨result, reportedAt.found, rfl⟩

/-- The kind that an equation is reported with says which item it computes, and what has become of
the class. -/
theorem ReportedAt.kind_cases (valid : (analyse model).type.isValid)
    (reportedAt : ReportedAt model place number order source equation item result) :
    (∃ record, item = .value record ∧ ComputesValue model equation record) ∨
      ∃ record, item = .rate record ∧ result.kind = .rate ∧
        ((final model).registry.get record).kind = .state := by
  have ordered := reportedAt.ordered
  cases item with
  | value record => exact Or.inl ⟨record, rfl, ordered.computesValue valid⟩
  | rate record =>
      obtain ⟨kind, left⟩ := ordered.computesRate valid
      exact Or.inr ⟨record, rfl, reportedAt.kind.trans kind, left⟩

/-- Equations of one kind compute classes of one kind, if they compute rates or algebraic
variables. -/
theorem ReportedAt.kind_left (valid : (analyse model).type.isValid)
    (reportedAt : ReportedAt model place number order source equation item result)
    (kind : result.kind = .rate ∨ result.kind = .algebraic) :
    ((final model).registry.get item.number).kind =
        (if result.kind = .rate then .state else .algebraic) ∧
      (((start model).registry.get item.number).kind = .state ↔ result.kind = .rate) := by
  have open_ := reportedAt.ordered.open_
  rcases reportedAt.kind_cases valid with ⟨record, rfl, computes⟩ | ⟨record, rfl, isRate, left⟩
  · have unknown : ((start model).registry.get record).kind = .unknown := open_
    rw [reportedAt.kind] at kind ⊢
    cases computes with
    | trueConstant same => simp [same] at kind
    | variableBased same => simp [same] at kind
    | algebraic same left => simp [same, left, unknown]
  · have isState : ((start model).registry.get record).kind = .state := open_
    simp [isRate, left, isState]

/-- Constants are computed as constants. -/
theorem ReportedAt.isConstant_iff (valid : (analyse model).type.isValid)
    (reportedAt : ReportedAt model place number order source equation item result) :
    IsConstant (analyse model).equations place ↔
      (equation.kind = .trueConstant ∧ equation.trueConstant) ∨
        (equation.kind = .variableBasedConstant ∧ equation.variableBased) := by
  have kind := reportedAt.isKind
  rw [reportedAt.kind] at kind
  constructor
  · intro constant
    rcases reportedAt.kind_cases valid with ⟨record, -, computes⟩ | ⟨record, -, isRate, -⟩
    · cases computes with
      | trueConstant same flag => exact Or.inl ⟨same, flag⟩
      | variableBased same flag => exact Or.inr ⟨same, flag⟩
      | algebraic same =>
          rw [same] at kind
          rcases constant with constant | constant <;> cases kind.eq constant
    · rw [← reportedAt.kind, isRate] at kind
      rcases constant with constant | constant <;> cases kind.eq constant
  · rintro (⟨same, -⟩ | ⟨same, -⟩)
    · exact Or.inl (same ▸ kind)
    · exact Or.inr (same ▸ kind)

/-! ## Dependencies -/

/-- What a report depends on are the places of what the equation depends on. -/
theorem ReportedAt.mem_dependencies
    (reportedAt : ReportedAt model place number order source equation item result)
    {dependency : Nat} (depends : dependency ∈ result.dependencies) :
    ∃ other ∈ equation.dependencies, (reported model)[dependency]? = some other := by
  rw [reportedAt.dependencies, List.mem_filterMap] at depends
  obtain ⟨other, membership, place⟩ := depends
  obtain ⟨inside, equal, -⟩ := List.idxOf?_eq_some_iff.mp place
  exact ⟨other, membership, by rw [List.getElem?_eq_getElem inside, equal]⟩

theorem ReportedAt.exists_dependency
    (reportedAt : ReportedAt model place number order source equation item result) {other : Nat}
    (depends : other ∈ equation.dependencies) {orderOther : Nat}
    (ordered : (final model).orderOf other = some orderOther) :
    ∃ dependency ∈ result.dependencies, (reported model)[dependency]? = some other := by
  obtain ⟨place, listed⟩ := exists_place ordered
  have isSome : ((reported model).idxOf? other).isSome := by
    rw [List.isSome_idxOf?]
    exact List.mem_of_getElem? listed
  obtain ⟨dependency, found⟩ := Option.isSome_iff_exists.mp isSome
  obtain ⟨inside, equal, -⟩ := List.idxOf?_eq_some_iff.mp found
  refine ⟨dependency, ?_, by rw [List.getElem?_eq_getElem inside, equal]⟩
  rw [reportedAt.dependencies]
  exact List.mem_filterMap.mpr ⟨other, depends, found⟩

/-- A dependency of a reported equation: it has been ordered before, and computes a value that the
equation refers to. -/
theorem exists_dependency_reportedAt (valid : (analyse model).type.isValid) {dependency : Nat}
    (depends : DependsOn (analyse model).equations (fun _ => true) place dependency) :
    ∃ number order source equation item result number' order' source' equation' item' result',
      ReportedAt model place number order source equation item result ∧
      ReportedAt model dependency number' order' source' equation' item' result' ∧
      order' < order ∧
      ∃ record, .value record ∈ source.items ∧ .value record ∉ equation.items ∧
        ((final model).registry.get record).equation = some number' := by
  obtain ⟨result, other, found, membership, foundOther, -⟩ := depends
  obtain ⟨number, order, source, equation, item, reportedAt⟩ := exists_reportedAt valid found
  obtain ⟨number', order', source', equation', item', reportedAt'⟩ :=
    exists_reportedAt valid foundOther
  refine ⟨number, order, source, equation, item, result, number', order', source', equation',
    item', other, reportedAt, reportedAt', ?_⟩
  obtain ⟨number'', noted, listed⟩ := reportedAt.mem_dependencies membership
  obtain rfl := Option.some.inj (reportedAt'.listed.symm.trans listed)
  obtain ⟨order'', ordered, before, record, asked, gone, named⟩ :=
    Elimination.order_lt_of_dependency (ready model) (moves model)
      (start_getElem?.mpr reportedAt.ordered.foundSource) reportedAt.ordered.found noted
  obtain rfl := Option.some.inj (reportedAt'.ordered.orderOf_eq.symm.trans ordered)
  exact ⟨before order reportedAt.ordered.order, record, asked, gone, named⟩

/-- The class that names a reported equation is what the equation computes. -/
theorem ReportedAt.number_eq
    (reportedAt : ReportedAt model place number order source equation item result) {record : Nat}
    (named : ((final model).registry.get record).equation = some number) :
    item.number = record := by
  obtain ⟨computing, item', _, found, -, single, rfl, -⟩ :=
    Elimination.exists_computing (ready model) (moves model) named
  obtain rfl := Option.some.inj (reportedAt.ordered.found.symm.trans found)
  have same : item = item' := by simpa using reportedAt.ordered.single.symm.trans single
  rw [same]

/-- What a constant refers to, apart from itself, are constants. -/
theorem ReportedAt.isFixed_of_isConstant (valid : (analyse model).type.isValid)
    (reportedAt : ReportedAt model place number order source equation item result)
    (constant : IsConstant (analyse model).equations place) {other : Item}
    (asked : other ∈ source.items) (gone : other ∉ equation.items) :
    ∃ record, other = .value record ∧
      Elimination.IsFixed ((final model).registry.get record) := by
  have foundSource := start_getElem?.mpr reportedAt.ordered.foundSource
  have found := reportedAt.ordered.found
  rcases (reportedAt.isConstant_iff valid).mp constant with ⟨-, flag⟩ | ⟨-, flag⟩
  · rw [Elimination.items_of_trueConstant (ready model) (moves model) foundSource found flag]
      at gone
    exact absurd asked gone
  · exact Elimination.isFixed_of_variableBased (ready model) (moves model) foundSource found flag
      asked gone

/-! ## Ranks -/

theorem ReportedAt.computedRecord_eq
    (reportedAt : ReportedAt model place number order source equation item result) :
    (final model).computedRecord number = (final model).registry.get item.number := by
  simp [Elimination.computedRecord, reportedAt.ordered.found, reportedAt.ordered.computes]

/-- Of two equations for classes of one kind, the one that is listed first has been ordered
first. -/
theorem ReportedAt.order_le (valid : (analyse model).type.isValid)
    (reportedAt : ReportedAt model place number order source equation item result)
    {place' number' order' : Nat} {source' equation' : OrderedEquation} {item' : Item}
    {result' : AnalysedEquation}
    (reportedAt' : ReportedAt model place' number' order' source' equation' item' result')
    (kind : result.kind = .rate ∨ result.kind = .algebraic) (same : result'.kind = result.kind)
    (before : place < place') : order ≤ order' := by
  obtain ⟨left, isState⟩ := reportedAt.kind_left valid kind
  obtain ⟨left', isState'⟩ := reportedAt'.kind_left valid (same ▸ kind)
  rw [same] at left' isState'
  have ascending := Elimination.ascending_of_moves (ready model) (moves model)
  obtain ⟨_, at_, -⟩ := ascending.bound _ _ reportedAt.ordered.named
  obtain ⟨_, at', -⟩ := ascending.bound _ _ reportedAt'.ordered.named
  by_contra later
  have lower := ascending.ascending _ _ _ _ _ _ _ _ reportedAt'.ordered.named
    reportedAt.ordered.named reportedAt'.ordered.orderOf_eq reportedAt.ordered.orderOf_eq at' at_
    (isState'.trans isState.symm) (Nat.lt_of_not_le later)
  obtain ⟨inside, equal⟩ := List.getElem?_eq_some_iff.mp reportedAt.listed
  obtain ⟨inside', equal'⟩ := List.getElem?_eq_some_iff.mp reportedAt'.listed
  have sorted : (reported model).Pairwise fun one other =>
      layoutOrder ((final model).computedRecord one) ((final model).computedRecord other) :=
    pairwise_equationOrder
  have laidOut := List.pairwise_iff_getElem.mp sorted place place' inside inside' before
  rw [equal, equal', reportedAt.computedRecord_eq, reportedAt'.computedRecord_eq, layoutOrder_iff,
    left, left'] at laidOut
  simp [Record.placeRank, at_, at'] at laidOut
  omega

/-- The equations that a model reports are ranked by their orders. -/
theorem ranked (valid : (analyse model).type.isValid) :
    Ranked (analyse model).equations (rankAt model) where
  bounded := by
    intro place inside
    obtain ⟨_, _, _, _, _, reportedAt⟩ :=
      exists_reportedAt valid (List.getElem?_eq_getElem inside)
    exact reportedAt.rank_lt valid
  lower := by
    intro place dependency depends
    obtain ⟨_, _, _, _, _, _, _, _, _, _, _, _, reportedAt, reportedAt', before, -⟩ :=
      exists_dependency_reportedAt valid depends
    rwa [reportedAt.rankAt_eq, reportedAt'.rankAt_eq]
  constant := by
    intro place dependency depends constant
    obtain ⟨_, _, _, _, _, _, _, _, _, _, item', result', reportedAt, reportedAt', -, record, asked,
      gone, named⟩ := exists_dependency_reportedAt valid depends
    obtain ⟨_, equal, fixed⟩ := reportedAt.isFixed_of_isConstant valid constant asked gone
    obtain rfl := Item.value.inj equal
    have computed := reportedAt'.number_eq named
    have kind := reportedAt'.isKind
    rcases reportedAt'.kind_cases valid with ⟨record', rfl, computes⟩ | ⟨record', rfl, -, left⟩
    · obtain rfl : record' = record := computed
      rw [reportedAt'.kind] at kind
      cases computes with
      | trueConstant same => exact Or.inl (same ▸ kind)
      | variableBased same => exact Or.inr (same ▸ kind)
      | algebraic _ left => simp [Elimination.IsFixed, left] at fixed
    · obtain rfl : record' = record := computed
      simp [Elimination.IsFixed, left] at fixed
  kinds := by
    intro result membership unknown
    obtain ⟨_, _, _, _, _, _, reportedAt⟩ := exists_reportedAt_of_mem_equations valid membership
    rcases reportedAt.kind_cases valid with ⟨_, -, computes⟩ | ⟨_, -, isRate, -⟩
    · rw [reportedAt.kind] at unknown
      cases computes <;> simp_all
    · rw [isRate] at unknown
      cases unknown
  listed := by
    rintro kind place other listed ⟨result, found, isKind⟩ ⟨result', found', isKind'⟩ lower
    obtain ⟨_, _, _, _, _, reportedAt⟩ := exists_reportedAt valid found
    obtain ⟨_, _, _, _, _, reportedAt'⟩ := exists_reportedAt valid found'
    rw [reportedAt.rankAt_eq, reportedAt'.rankAt_eq] at lower
    by_contra behind
    rcases Nat.lt_or_eq_of_le (Nat.le_of_not_lt behind) with before | rfl
    · have ordered := reportedAt'.order_le valid reportedAt (isKind' ▸ listed)
        (isKind.trans isKind'.symm) before
      omega
    · obtain rfl := Option.some.inj (reportedAt.listed.symm.trans reportedAt'.listed)
      have same := reportedAt.ordered.orderOf_eq.symm.trans reportedAt'.ordered.orderOf_eq
      simp only [Option.some.injEq] at same
      omega

end Stage

end ComponentModel.Analysis
