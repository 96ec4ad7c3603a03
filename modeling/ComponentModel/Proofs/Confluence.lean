import ComponentModel.Proofs.Elimination.Flags
import ComponentModel.Proofs.Preparation
import Mathlib

/-!
# The sequence of equations does not matter

Two eliminations of the same equations, in whatever sequences these stand, agree as soon as one of
them orders all equations: so does the other one, and each equation computes the same class in
both, is of the same kind and depends on states or rates in both or in neither. The proof follows
the orders of one elimination: what an equation computes is settled by items that have been computed
before, and both eliminations computed these by the same equations.
-/

namespace ComponentModel.Analysis

namespace Elimination

open Relation (ReflTransGen)

variable {index : Index} {start final other : Elimination} {equations : List OrderedEquation}
  {number number' order order' : Nat} {source equation equation' : OrderedEquation} {item : Item}

/-- A class about which something is known keeps its kind, unless it is marked. -/
theorem kind_eq_of_ne_unknown (ready : Start start)
    (moves : ReflTransGen (Move index) start final) {record : Nat}
    (unmarked : (final.registry.get record).kind ≠ .overconstrained)
    (known : (start.registry.get record).kind ≠ .unknown) :
    (final.registry.get record).kind = (start.registry.get record).kind := by
  cases standing_of_moves ready moves record with
  | untouched kind => exact kind
  | twice _ kind => exact absurd kind unmarked
  | value unknown => exact absurd unknown known
  | rate isState kind => exact (kind.resolve_right unmarked).trans isState.symm

/-- A value about which something is known depends on states or rates exactly if it is that of a
state. -/
theorem isRateBased_value_iff (ready : Start start)
    (moves : ReflTransGen (Move index) start final) {record : Nat}
    (known : (start.registry.get record).kind ≠ .unknown) :
    IsRateBased start final (.value record) ↔ (start.registry.get record).kind = .state := by
  refine ⟨?_, Or.inl⟩
  rintro (isState | ⟨number, named, -⟩)
  · exact isState
  · obtain ⟨_, item, _, _, _, _, rfl, -, open_⟩ := exists_computing ready moves named
    cases item with
    | value _ => exact absurd open_ known
    | rate _ => exact open_

/-- The value that an equation computes depends on states or rates if the equation does. -/
theorem Computing.isRateBased_iff {record : Nat}
    (unknown : (start.registry.get record).kind = .unknown)
    (computing : Computing start final number order source equation (.value record)) :
    IsRateBased start final (.value record) ↔ equation.rateBased = true := by
  constructor
  · rintro (isState | ⟨number', named, flag⟩)
    · cases unknown.symm.trans isState
    · obtain rfl := Option.some.inj (computing.named.symm.trans named)
      simpa [rateBased, computing.found] using flag
  · intro flag
    exact Or.inr ⟨number, computing.named, by simpa [rateBased, computing.found] using flag⟩

/-- Two eliminations agree on an equation and on what it computes. -/
structure Agree (final other : Elimination) (equation equation' : OrderedEquation) (item : Item) :
    Prop where
  kind : equation'.kind = equation.kind
  rateBased : equation'.rateBased = equation.rateBased
  recordKind : (other.registry.get item.number).kind = (final.registry.get item.number).kind

section

variable (ready : Start start) (same : equations.Perm start.equations)
  (loop : Loop index start final) (moves : ReflTransGen (Move index) start final)
  (complete : final.IsComplete) (loopOther : Loop index (start.withEquations equations) other)
  (movesOther : ReflTransGen (Move index) (start.withEquations equations) other)
  (completeOther : other.IsComplete)

include ready same loop moves complete loopOther movesOther completeOther

/-- Two eliminations agree on what an equation refers to besides, once they agree on all equations
with smaller orders. -/
theorem Computing.agree_needed
    (before : ∀ smaller < order, ∀ {number source equation item},
      Computing start final number smaller source equation item →
      ∀ {number' order' equation'},
        Computing (start.withEquations equations) other number' order' source equation' item →
        Agree final other equation equation' item)
    (computing : Computing start final number order source equation item) {needed : Item}
    (asked : needed ∈ source.items) (different : needed ≠ item) :
    (other.registry.get needed.number).kind = (final.registry.get needed.number).kind ∧
      (IsRateBased (start.withEquations equations) other needed ↔
        IsRateBased start final needed) := by
  have readyOther := ready.withEquations same.subset
  by_cases unknown : (start.registry.get needed.number).kind = .unknown
  · have unsettled : needed.isSettled start.registry = false :=
      isSettled_of_unknown ready (.refl (r := Move index)) computing.foundSource asked unknown
    obtain ⟨_, smaller, sourceNeeded, _, less, computes⟩ :=
      computing.exists_earlier ready moves asked different unsettled
    obtain ⟨_, foundNeeded⟩ := List.mem_iff_getElem?.mp
      (same.symm.subset (List.mem_of_getElem? computes.foundSource))
    obtain ⟨_, _, _, computes'⟩ := completeOther.exists_computing readyOther movesOther foundNeeded
    obtain rfl :=
      (computes'.item_eq_of_complete ready moves complete same.subset movesOther computes).symm
    have agree := before smaller less computes computes'
    refine ⟨agree.recordKind, ?_⟩
    cases needed with
    | rate record => exact Iff.rfl
    | value record =>
        rw [Item.number_value] at unknown
        have unknown' : ((start.withEquations equations).registry.get record).kind = .unknown :=
          unknown
        rw [computes'.isRateBased_iff unknown', computes.isRateBased_iff unknown, agree.rateBased]
  · have kind := kind_eq_of_ne_unknown ready moves
      (complete.kind_ne_overconstrained ready loop needed.number) unknown
    have kindOther := kind_eq_of_ne_unknown readyOther movesOther
      (completeOther.kind_ne_overconstrained readyOther loopOther needed.number) unknown
    refine ⟨kindOther.trans kind.symm, ?_⟩
    cases needed with
    | rate record => exact Iff.rfl
    | value record =>
        exact (isRateBased_value_iff readyOther movesOther unknown).trans
          (isRateBased_value_iff ready moves unknown).symm

/-- Two eliminations that order all equations agree on each of them. -/
theorem Computing.agree :
    ∀ {number source equation item}, Computing start final number order source equation item →
      ∀ {number' order' equation'},
        Computing (start.withEquations equations) other number' order' source equation' item →
        Agree final other equation equation' item := by
  have readyOther := ready.withEquations same.subset
  have unmarked := complete.kind_ne_overconstrained ready loop
  have unmarkedOther := completeOther.kind_ne_overconstrained readyOther loopOther
  induction order using Nat.strongRecOn with
  | ind order ih =>
  intro number source equation item computing number' order' equation' computing'
  have needed {needed : Item} (asked : needed ∈ source.items) (different : needed ≠ item) :=
    computing.agree_needed ready same loop moves complete loopOther movesOther completeOther ih
      asked different
  have flag {flag : OrderedEquation → Bool} {good : Kind → Bool} (flags : KindFlag flag good)
      (unknown : (start.registry.get item.number).kind = .unknown) :
      flag equation' = flag equation := by
    rw [Bool.eq_iff_iff, flags.iff_of_computing ready moves unmarked computing unknown,
      flags.iff_of_computing readyOther movesOther unmarkedOther computing' unknown]
    refine forall₂_congr fun other asked => forall_congr' fun different => ?_
    rw [(needed asked different).1]
  have resolved : equation'.resolved (start.registry.get item.number).kind =
      equation.resolved (start.registry.get item.number).kind := by
    have open_ := computing.open_
    cases item with
    | value record =>
        rw [OrderedEquation.resolved, OrderedEquation.resolved,
          flag kindFlag_trueConstant open_, flag kindFlag_variableBased open_]
    | rate record =>
        rw [Item.number_rate, show (start.registry.get record).kind = .state from open_]
        rfl
  obtain ⟨recordKind, kind⟩ := computing.kinds ready moves unmarked
  obtain ⟨recordKind', kind'⟩ := computing'.kinds readyOther movesOther unmarkedOther
  have sameKind : (other.registry.get item.number).kind =
      (final.registry.get item.number).kind :=
    recordKind'.trans (resolved.trans recordKind.symm)
  refine ⟨by rw [kind, kind', sameKind], ?_, sameKind⟩
  rw [Bool.eq_iff_iff, computing.rateBased_iff ready loop moves,
    computing'.rateBased_iff readyOther loopOther movesOther]
  refine exists_congr fun item => and_congr_right fun asked => and_congr_left ?_
  rintro (⟨record, rfl⟩ | different)
  · exact Iff.rfl
  · exact (needed asked different).2

end

end Elimination

/-- If the loop over the equations of a model orders all of them, then it does so in whatever
sequence they stand, it marks no class as constrained twice, and it finds the same about each
equation: the class that it computes, its kind, and whether it depends on states or rates. What the
derivatives leave is always prepared, see `prepared_ofGathered`. -/
theorem run_complete_perm {gathered : Gathered}
    (prepared : Prepared gathered.registry gathered.equations) (index : Index)
    {equations : List OrderedEquation} (same : equations.Perm gathered.equations) :
    let order := byName index gathered.registry
    let final := (startOfElimination gathered order).run index
    let other := (startOfElimination { gathered with equations } order).run index
    (∀ equation ∈ final.equations, equation.order.isSome) →
    (∀ equation ∈ other.equations, equation.order.isSome) ∧
    (∀ record ∈ other.registry, record.kind ≠ .overconstrained) ∧
    ∀ (number number' : Nat) (source : OrderedEquation),
      gathered.equations[number]? = some source → equations[number']? = some source →
      ∃ equation equation' : OrderedEquation, final.equations[number]? = some equation ∧
        other.equations[number']? = some equation' ∧ equation'.computes.isSome ∧
        equation'.computes = equation.computes ∧ equation'.kind = equation.kind ∧
        equation'.rateBased = equation.rateBased := by
  intro order final other complete
  have ready := prepared.start index
  have readyOther := ready.withEquations same.subset
  let start := startOfElimination gathered order
  have loop : Elimination.Loop index start final := Elimination.loop_run ..
  have moves : Relation.ReflTransGen (Elimination.Move index) start final := Elimination.moves_run
  have loopOther : Elimination.Loop index (start.withEquations equations) other :=
    Elimination.loop_run index (startOfElimination { gathered with equations } order)
  have movesOther : Relation.ReflTransGen (Elimination.Move index)
      (start.withEquations equations) other :=
    @Elimination.moves_run index (startOfElimination { gathered with equations } order)
  have completeOther := Elimination.IsComplete.perm complete ready moves same loopOther movesOther
  refine ⟨completeOther, fun record membership => ?_, ?_⟩
  · obtain ⟨number, inside, rfl⟩ := List.getElem_of_mem membership
    have unmarked := completeOther.kind_ne_overconstrained readyOther loopOther number
    rwa [Registry.get_of_lt inside] at unmarked
  intro number number' source foundSource foundSource'
  obtain ⟨_, equation, item, computing⟩ :=
    Elimination.IsComplete.exists_computing complete ready moves foundSource
  obtain ⟨_, equation', item', computing'⟩ :=
    completeOther.exists_computing readyOther movesOther foundSource'
  obtain rfl :=
    (computing'.item_eq_of_complete ready moves complete same.subset movesOther computing).symm
  have agree := computing.agree ready same loop moves complete loopOther movesOther completeOther
    computing'
  exact ⟨equation, equation', computing.found, computing'.found, by simp [computing'.computes],
    computing'.computes.trans computing.computes.symm, agree.kind, agree.rateBased⟩

/-- The variable of integration, a state, and two classes about which nothing is known: one is
given by a number and makes the rate of the state, the other copies the state. -/
def constantRate : Gathered where
  registry :=
    [⟨0, 0, 0, .integrationVariable, none, none⟩, ⟨1, 1, 1, .state, none, none⟩,
     ⟨2, 2, 2, .unknown, none, none⟩, ⟨3, 3, 3, .unknown, none, none⟩]
  equations :=
    [.new (.apply .assignment (.apply .diff (.apply .bvar (.reference 0) .absent) (.reference 1))
        (.reference 2)) 0 [2] [1],
     .new (.apply .assignment (.reference 2) (.number "3")) 0 [2] [],
     .new (.apply .assignment (.reference 3) (.reference 1)) 0 [3, 1] []]
  issues := []

/-- Read from the last equation to the first, the equations are all ordered as well. -/
theorem constantRate_reverse :
    Prepared constantRate.registry constantRate.equations ∧
      ∀ equation ∈ ((startOfElimination
        { constantRate with equations := constantRate.equations.reverse }
        (byName (Index.ofTrees []) constantRate.registry)).run (Index.ofTrees [])).equations,
        equation.order.isSome := by
  have prepared : Prepared constantRate.registry constantRate.equations := by
    constructor
    case untouched => simp [constantRate, OrderedEquation.new]
    all_goals decide
  have ordered : ((startOfElimination constantRate
      (byName (Index.ofTrees []) constantRate.registry)).run
        (Index.ofTrees [])).equations.all fun equation => equation.order.isSome := by cbv
  refine ⟨prepared, ?_⟩
  exact (run_complete_perm prepared (Index.ofTrees []) (List.reverse_perm _)
    (List.all_eq_true.mp ordered)).1

end ComponentModel.Analysis
