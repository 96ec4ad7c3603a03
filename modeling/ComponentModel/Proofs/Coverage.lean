import ComponentModel.Proofs.Solution
import Mathlib

/-!
# Which equations are reported

A model that can be solved reports every equation that computes something, and each of them once.
It does not report all equations that it has: an equation of which nothing is left to compute, all
its values being settled by others before it is looked at, is passed over in silence, and so is an
equation between rates that nothing settles.
-/

namespace ComponentModel.Analysis

namespace Stage

variable {model : Model} {number : Nat}

/-- An item is available from the start, or an equation other than that of a number computes it. -/
def SettledElsewhere (model : Model) (number : Nat) (item : Item) : Prop :=
  item.isSettled (start model).registry ∨
    ∃ other, ((final model).registry.get item.number).equation = some other ∧ other ≠ number

/-- Everything that an equation refers to is settled by others, or at least two of the rates that
it refers to are never settled. -/
def LeftOut (model : Model) (number : Nat) (source : OrderedEquation) : Prop :=
  (∀ item ∈ source.items, SettledElsewhere model number item) ∨
    ∃ one ∈ source.items, ∃ other ∈ source.items, one ≠ other ∧
      one.isSettled (final model).registry = false ∧ other.isSettled (final model).registry = false

theorem mem_reported :
    number ∈ reported model ↔
      ∃ order source equation item, Ordered model number order source equation item := by
  unfold reported
  rw [mem_equationOrder]
  constructor
  · rintro ⟨equation, found, done⟩
    obtain ⟨order, source, item, ordered⟩ := exists_ordered found done
    exact ⟨order, source, equation, item, ordered⟩
  · rintro ⟨order, source, equation, item, ordered⟩
    exact ⟨equation, ordered.found, Option.isSome_of_eq_some ordered.order⟩

/-- What is settled in the end was available from the start, or an equation computes it. -/
theorem settledElsewhere_of_isSettled {item : Item}
    (settled : item.isSettled (final model).registry)
    (other : ((final model).registry.get item.number).equation ≠ some number) :
    SettledElsewhere model number item := by
  have before : Elimination.SettledBefore (start model) (final model) none item :=
    (Elimination.history_of_moves (ready model) (moves model)).settledBefore (ready model)
      (moves model) (by simp) settled
  rcases before with available | ⟨computing, order, named, -, -⟩
  · exact Or.inl available
  · refine Or.inr ⟨computing, named, ?_⟩
    rintro rfl
    exact other named

/-- Of an equation that computes one item of a class, the other item is available from the
start. -/
theorem Ordered.isSettled_start {order : Nat} {source equation : OrderedEquation}
    {item other : Item} (ordered : Ordered model number order source equation item)
    (asked : other ∈ source.items) (same : other.number = item.number) (different : other ≠ item) :
    other.isSettled (start model).registry := by
  have membership := List.mem_of_getElem? (start_getElem?.mpr ordered.foundSource)
  have open_ := ordered.open_
  cases item with
  | value record =>
      cases other with
      | value _ => exact absurd (congrArg Item.value same) different
      | rate number =>
          obtain rfl : number = record := same
          have differentiable := (ready model).differentiable source membership _
            (OrderedEquation.rate_mem_items.mp asked)
          exact absurd open_ differentiable.1
  | rate record =>
      cases other with
      | value number =>
          obtain rfl : number = record := same
          have isState : ((start model).registry.get number).kind = .state := open_
          simp [Item.isSettled, Record.isKnown, isState, Kind.isKnown]
      | rate _ => exact absurd (congrArg Item.rate same) different

/-- What an equation computes is settled by no other. -/
theorem not_settledElsewhere {item : Item} (open_ : item.IsOpen (start model).registry)
    (named : ((final model).registry.get item.number).equation = some number) :
    ¬SettledElsewhere model number item := by
  rintro (available | ⟨computing, computes, different⟩)
  · have unplaced := (ready model).unplaced_of_isOpen open_
    rw [Item.isSettled_of_isOpen open_ unplaced] at available
    cases available
  · exact different (Option.some.inj (computes.symm.trans named))

/-- What an equation with an order computes is the only one of its items that nothing else
settles. -/
theorem Ordered.settledElsewhere_iff {order : Nat} {source equation : OrderedEquation}
    {item other : Item} (ordered : Ordered model number order source equation item)
    (asked : other ∈ source.items) : SettledElsewhere model number other ↔ other ≠ item := by
  constructor
  · rintro elsewhere rfl
    exact not_settledElsewhere ordered.open_ ordered.named elsewhere
  · intro different
    by_cases named : ((final model).registry.get other.number).equation = some number
    · obtain ⟨found, computed, _, foundFinal, -, single, same, -⟩ :=
        Elimination.exists_computing (ready model) (moves model) named
      obtain rfl := Option.some.inj (ordered.found.symm.trans foundFinal)
      obtain rfl : item = computed := by simpa using ordered.single.symm.trans single
      exact Or.inl (ordered.isSettled_start asked same.symm different)
    · have settled := Elimination.isSettled_of_ordered (ready model) (moves model)
        (start_getElem?.mpr ordered.foundSource) ordered.found
        (Option.isSome_of_eq_some ordered.order) asked
      exact settledElsewhere_of_isSettled settled named

/-- What an equation computes is settled by no other, and nothing it refers to stays open. -/
theorem Ordered.not_leftOut {order : Nat} {source equation : OrderedEquation} {item : Item}
    (ordered : Ordered model number order source equation item) : ¬LeftOut model number source := by
  rintro (elsewhere | ⟨one, asked, -, -, -, unsettled, -⟩)
  · exact (ordered.settledElsewhere_iff ordered.asked).mp (elsewhere item ordered.asked) rfl
  · have settled := Elimination.isSettled_of_ordered (ready model) (moves model)
      (start_getElem?.mpr ordered.foundSource) ordered.found
      (Option.isSome_of_eq_some ordered.order) asked
    simp [settled] at unsettled

/-- In a model that can be solved, only rates stay open, and they are rates of states. -/
theorem isOpen_of_unsettled (valid : (analyse model).type.isValid) {source : OrderedEquation}
    (found : (built model)[number]? = some source) {item : Item} (asked : item ∈ source.items)
    (unsettled : item.isSettled (final model).registry = false) :
    item.IsOpen (start model).registry := by
  have membership := List.mem_of_getElem? (start_getElem?.mpr found)
  have inside : item.number < (final model).registry.length := by
    rw [Elimination.length_registry_of_moves (moves model)]
    exact (ready model).inside source membership item asked
  obtain ⟨type, role⟩ := role_of_valid valid inside
  have unplaced := Item.place_eq_none unsettled
  have kept := (Elimination.standing_of_moves (ready model) (moves model) item.number).of_unplaced
    (fun given => ((ready model).placed item.number).mpr given) unplaced
  have initial := (ready model).initial item.number
  rw [kept.1] at role
  cases item with
  | value record =>
      cases kind : ((start model).registry.get record).kind <;>
        simp_all [Item.isSettled, Record.isKnown, Kind.isKnown, Kind.isInitial,
          VariableType.ofKind?]
  | rate record =>
      have differentiable := (ready model).differentiable source membership record
        (OrderedEquation.rate_mem_items.mp asked)
      change ((start model).registry.get record).kind = .state
      cases kind : ((start model).registry.get record).kind <;>
        simp_all [Item.isSettled, Kind.isInitial, VariableType.ofKind?]

/-- An equation without an order is left out. -/
theorem leftOut_of_not_mem (valid : (analyse model).type.isValid) {source : OrderedEquation}
    (found : (built model)[number]? = some source) (absent : number ∉ reported model) :
    LeftOut model number source := by
  have unnamed : ∀ record, ((final model).registry.get record).equation ≠ some number := by
    intro record named
    obtain ⟨equation, _, order, foundFinal, ordered, -⟩ :=
      Elimination.exists_computing (ready model) (moves model) named
    exact absent (mem_equationOrder.mpr ⟨equation, foundFinal, Option.isSome_of_eq_some ordered⟩)
  by_cases every : ∀ item ∈ source.items, item.isSettled (final model).registry
  · exact Or.inl fun item asked =>
      settledElsewhere_of_isSettled (every item asked) (unnamed item.number)
  · simp only [not_forall, Bool.not_eq_true] at every
    obtain ⟨one, asked, unsettled⟩ := every
    have open_ := isOpen_of_unsettled valid found asked unsettled
    obtain ⟨other, askedOther, different, unsettledOther⟩ :=
      (Elimination.loop_run (index model) (start model)).exists_unsettled (ready model)
        (moves model) (List.mem_of_getElem? (start_getElem?.mpr found)) asked open_ unsettled
    exact Or.inr ⟨one, asked, other, askedOther, different.symm, unsettled, unsettledOther⟩

/-! ## Counting -/

/-- The record that the equation of a number computes. -/
def computedBy (model : Model) (number : Nat) : Nat :=
  ((final model).equations[number]?.bind OrderedEquation.computes).getD 0

theorem Ordered.computedBy_eq {order : Nat} {source equation : OrderedEquation} {item : Item}
    (ordered : Ordered model number order source equation item) :
    computedBy model number = item.number := by
  simp [computedBy, ordered.found, ordered.computes]

/-- The equations that are reported are those of the records that name one, each once. -/
theorem map_computedBy_perm :
    ((reported model).map (computedBy model)).Perm
      ((start model).registry.numbers.filter fun record =>
        ((final model).registry.get record).equation.isSome) := by
  refine (List.perm_ext_iff_of_nodup ?_ ?_).mpr ?_
  · refine nodup_equationOrder.map_on fun one memberOne other memberOther same => ?_
    obtain ⟨_, _, _, _, orderedOne⟩ := mem_reported.mp memberOne
    obtain ⟨_, _, _, _, orderedOther⟩ := mem_reported.mp memberOther
    rw [orderedOne.computedBy_eq, orderedOther.computedBy_eq] at same
    have named := orderedOne.named
    rw [same] at named
    exact Option.some.inj (named.symm.trans orderedOther.named)
  · exact List.nodup_range.filter _
  · intro record
    rw [List.mem_map, List.mem_filter, Registry.numbers, List.mem_range]
    constructor
    · rintro ⟨number, membership, rfl⟩
      obtain ⟨_, source, _, item, ordered⟩ := mem_reported.mp membership
      rw [ordered.computedBy_eq, ordered.named]
      exact ⟨(ready model).inside source (List.mem_of_getElem?
        (start_getElem?.mpr ordered.foundSource)) item ordered.asked, rfl⟩
    · rintro ⟨-, named⟩
      obtain ⟨number, named⟩ := Option.isSome_iff_exists.mp named
      obtain ⟨equation, _, order, found, ordered, -, -, computes, -⟩ :=
        Elimination.exists_computing (ready model) (moves model) named
      refine ⟨number, mem_equationOrder.mpr ⟨equation, found, Option.isSome_of_eq_some ordered⟩, ?_⟩
      simp [computedBy, found, computes]

open Classical in
/-- The classes that the equations determine: those that nothing is known about before, and the
states with rates in the closure of the equations. -/
noncomputable def determined (model : Model) : List Nat :=
  (start model).registry.numbers.filter fun record =>
    ((start model).registry.get record).kind = .unknown ∨
      ((start model).registry.get record).kind = .state ∧
        Settled (start model).registry (built model) (.rate record)

/-- A record names an equation exactly if its class is determined. -/
theorem equation_isSome_iff (valid : (analyse model).type.isValid) (record : Nat)
    (inside : record < (start model).registry.length) :
    ((final model).registry.get record).equation.isSome ↔
      ((start model).registry.get record).kind = .unknown ∨
        ((start model).registry.get record).kind = .state ∧
          Settled (start model).registry (built model) (.rate record) := by
  have loop := Elimination.loop_run (index model) (start model)
  rw [← start_equations]
  constructor
  · intro named
    obtain ⟨number, named⟩ := Option.isSome_iff_exists.mp named
    obtain ⟨equation, item, order, found, ordered, single, rfl, -, open_⟩ :=
      Elimination.exists_computing (ready model) (moves model) named
    cases item with
    | value record => exact Or.inl open_
    | rate record =>
        exact Or.inr ⟨open_,
          Elimination.settled_of_ordered (ready model) (moves model) found ordered single⟩
  · intro determined
    have placed : ∃ item : Item, item.number = record ∧ item.IsOpen (start model).registry ∧
        ((final model).registry.get item.number).place.isSome := by
      rcases determined with unknown | ⟨isState, settled⟩
      · refine ⟨.value record, rfl, unknown, ?_⟩
        by_contra unplaced
        have open_ := (Elimination.kind_eq_unknown_iff (ready model) (moves model) record).mpr
          ⟨unknown, unplaced⟩
        have insideFinal : record < (final model).registry.length := by
          rw [Elimination.length_registry_of_moves (moves model)]
          exact inside
        obtain ⟨type, role⟩ := role_of_valid valid insideFinal
        rw [open_] at role
        cases role
      · have open_ : Item.IsOpen (start model).registry (.rate record) := isState
        exact ⟨.rate record, rfl, open_,
          (Elimination.placed_iff_settled (ready model) loop open_).mpr settled⟩
    obtain ⟨item, rfl, open_, placed⟩ := placed
    obtain ⟨-, number, equation, named, -⟩ :=
      (Elimination.placed_iff_computes (ready model) (moves model) open_).mp placed
    exact Option.isSome_of_eq_some named

open Classical in
/-- As many equations are reported as there are classes to determine. -/
theorem length_reported (valid : (analyse model).type.isValid) :
    (reported model).length = (determined model).length := by
  rw [← List.length_map (computedBy model), map_computedBy_perm.length_eq, determined]
  congr 1
  apply List.filter_congr
  intro record membership
  have same := equation_isSome_iff valid record (List.mem_range.mp membership)
  rw [Bool.eq_iff_iff, decide_eq_true_iff]
  exact same

/-- Numbers below a bound, each listed once, are all numbers below it if they are as many. -/
theorem forall_mem_iff_length {numbers : List Nat} {bound : Nat} (nodup : numbers.Nodup)
    (below : ∀ number ∈ numbers, number < bound) :
    (∀ number < bound, number ∈ numbers) ↔ bound = numbers.length := by
  have within : numbers.Subperm (List.range bound) :=
    List.subperm_of_subset nodup fun number membership =>
      List.mem_range.mpr (below number membership)
  constructor
  · intro every
    have all : (List.range bound).Subperm numbers :=
      List.subperm_of_subset List.nodup_range fun number membership =>
        every number (List.mem_range.mp membership)
    simpa using Nat.le_antisymm all.length_le within.length_le
  · intro length number inside
    have perm := within.perm_of_length_le (by simp [length])
    exact perm.mem_iff.mpr (List.mem_range.mpr inside)

/-- An equation as it is reported. -/
def scaled (model : Model) (number : Nat) : Equation.Expr :=
  match (built model)[number]? with
  | some source => source.expr.rescale (rule model) false
  | none => .absent

/-- The expressions that are reported are those of the equations that are listed. -/
theorem map_expr_equations (valid : (analyse model).type.isValid) :
    (analyse model).equations.map AnalysedEquation.expr = (reported model).map (scaled model) := by
  apply List.ext_getElem?
  intro place
  rw [List.getElem?_map, List.getElem?_map]
  cases listed : (reported model)[place]? with
  | none =>
      have outside : (analyse model).equations[place]? = none := by
        rw [List.getElem?_eq_none_iff] at listed ⊢
        rwa [length_equations valid]
      rw [outside]
      rfl
  | some number =>
      obtain ⟨_, source, _, _, result, reportedAt⟩ := exists_reportedAt_of_mem valid listed
      simp [reportedAt.found, reportedAt.expr, scaled, reportedAt.ordered.foundSource]

/-- A model that can be solved reports, each once, the equations that are not left out, and they
are as many as the classes to determine. So it reports all of its equations exactly if it has as
many equations as classes to determine. -/
theorem reports_all_but_left_out (model : Model) (valid : (analyse model).type.isValid) :
    (analyse model).equations.map AnalysedEquation.expr = (reported model).map (scaled model) ∧
      (reported model).Nodup ∧
      (∀ number source, (built model)[number]? = some source →
        (number ∈ reported model ↔ ¬LeftOut model number source)) ∧
      (reported model).length = (determined model).length ∧
      ((∀ number < (built model).length, number ∈ reported model) ↔
        (built model).length = (determined model).length) := by
  have subset : ∀ number ∈ reported model, number < (built model).length := by
    intro number membership
    obtain ⟨_, _, _, _, ordered⟩ := mem_reported.mp membership
    exact (List.getElem?_eq_some_iff.mp ordered.foundSource).1
  refine ⟨map_expr_equations valid, nodup_equationOrder, ?_, length_reported valid, ?_⟩
  · intro number source found
    constructor
    · intro membership
      obtain ⟨_, _, _, _, ordered⟩ := mem_reported.mp membership
      obtain rfl := Option.some.inj (found.symm.trans ordered.foundSource)
      exact ordered.not_leftOut
    · intro needed
      by_contra absent
      exact needed (leftOut_of_not_mem valid found absent)
  · rw [← length_reported valid]
    exact forall_mem_iff_length nodup_equationOrder subset

/-- A variable that is given a value twice, by `x = 3` and by `x = k` with a constant `k`. -/
def givenTwice : Model :=
  single "given_twice"
    [⟨"x", "dimensionless", none, none⟩, ⟨"k", "dimensionless", some (.text "2"), none⟩]
    ("<math><apply><eq/><ci>x</ci><cn>3</cn></apply>" ++
      "<apply><eq/><ci>x</ci><ci>k</ci></apply></math>")

theorem gathered_givenTwice : Gathered.ofIndex (index givenTwice) =
    ⟨[⟨0, 0, 0, .unknown, none, none⟩, ⟨1, 1, 1, .constant, none, none⟩],
      [.new (.apply .assignment (.reference 0) (.number "3")) 0 [0] [],
       .new (.apply .assignment (.reference 0) (.reference 1)) 0 [0, 1] []], []⟩ := by
  cbv

theorem derivatives_givenTwice :
    derivatives givenTwice = ⟨Gathered.ofIndex (index givenTwice), none⟩ := by
  rw [derivatives, gathered_givenTwice]
  cbv

theorem registry_givenTwice : (final givenTwice).registry =
    [⟨0, 0, 0, .computedTrueConstant, some 1, some 0⟩, ⟨1, 1, 1, .constant, some 0, none⟩] := by
  rw [final, start, derivatives_givenTwice, gathered_givenTwice]
  cbv

theorem reported_givenTwice : reported givenTwice = [0] := by
  rw [reported, final, start, derivatives_givenTwice, gathered_givenTwice]
  cbv

theorem type_givenTwice : (analyse givenTwice).type = .algebraic := by
  have gathered : (Gathered.ofIndex (index givenTwice)).issues = [] := by
    rw [gathered_givenTwice]
  rw [type_analyse gathered (by rw [derivatives_givenTwice, gathered]), registry_givenTwice,
    derivatives_givenTwice]
  rfl

theorem valid_givenTwice : (analyse givenTwice).type.isValid := by
  rw [type_givenTwice]
  rfl

/-- The second equation of the two is left out. -/
theorem givenTwice_leftOut :
    (analyse givenTwice).type.isValid ∧ ∃ source, (built givenTwice)[1]? = some source ∧
      1 ∉ reported givenTwice ∧ LeftOut givenTwice 1 source := by
  have absent : 1 ∉ reported givenTwice := by rw [reported_givenTwice]; decide
  have found : (built givenTwice)[1]? =
      some (.new (.apply .assignment (.reference 0) (.reference 1)) 0 [0, 1] []) := by
    rw [built, gathered_givenTwice]
    rfl
  obtain ⟨-, -, leftOut, -⟩ := reports_all_but_left_out givenTwice valid_givenTwice
  have needed := not_congr (leftOut 1 _ found)
  rw [not_not] at needed
  exact ⟨valid_givenTwice, _, found, absent, needed.mp absent⟩

/-- A model can be solved without all of its equations. -/
theorem givenTwice_reports_one_of_two :
    (analyse givenTwice).type = .algebraic ∧ (built givenTwice).length = 2 ∧
      (analyse givenTwice).equations.length = 1 := by
  refine ⟨type_givenTwice, ?_, ?_⟩
  · rw [built, gathered_givenTwice]
    rfl
  · rw [length_equations valid_givenTwice, reported_givenTwice]
    rfl

end Stage

end ComponentModel.Analysis
