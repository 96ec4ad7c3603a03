import ComponentModel.Proofs.Derivatives
import Mathlib

/-!
# What the equations determine

Which classes of a model end up determined depends on its equations alone, and not on the order in
which they are tried: an elimination settles the least set of items that is closed under its one
rule, and reports the classes outside of it.
-/

namespace ComponentModel.Analysis

/-- Whether an issue says that nothing computes a variable. -/
def Issue.isNotComputed : Issue → Bool
  | .notComputed _ => true
  | _ => false

/-- The issues that a classification reports. -/
theorem issues_classify (units : Option Units.Registry) (index : Index) (state : Differentiated) :
    (classify units index state).issues =
      (byName index state.gathered.registry).filterMap fun number =>
        openIssue? index (((startOfElimination state.gathered
          (byName index state.gathered.registry)).run index).registry.get number) := by
  unfold classify
  simp only
  split <;> rfl

/-- A record is reported as not computed exactly if nothing is known about it. -/
theorem filter_openIssue? (index : Index) (record : Record) :
    (openIssue? index record).filter Issue.isNotComputed =
      if record.kind = .unknown then
        some (.notComputed (index.declaration record.declaration).fullName)
      else none := by
  unfold openIssue?
  cases record.kind <;> rfl

open Classical in
/-- The loop over all equations ends, and what it settles is the closure: a class that nothing was
known about is computed exactly if its value belongs to the closure, a state is laid out exactly
if its rate does, and the variables reported as not computed are those of the classes outside. What
the derivatives leave is always prepared, see `prepared_ofGathered`. -/
theorem run_settles_closure {gathered : Gathered}
    (prepared : Prepared gathered.registry gathered.equations) (index : Index)
    (units : Option Units.Registry) (integration : Option Nat) :
    let start := startOfElimination gathered (byName index gathered.registry)
    let final := start.run index
    let settled := Settled gathered.registry gathered.equations
    Elimination.Loop index start final ∧
    (∀ number, (gathered.registry.get number).kind = .unknown →
      (final.Computes number ↔ settled (.value number)) ∧
      ((final.registry.get number).place.isSome ↔ settled (.value number))) ∧
    (∀ number, (gathered.registry.get number).kind = .state →
      ((final.registry.get number).place.isSome ↔ settled (.rate number))) ∧
    (classify units index ⟨gathered, integration⟩).issues.filter Issue.isNotComputed =
      ((byName index gathered.registry).filter fun number =>
        (gathered.registry.get number).kind = .unknown ∧ ¬settled (.value number)).map
      fun number => .notComputed
        (index.declaration (final.registry.get number).declaration).fullName := by
  intro start final settled
  have ready : Elimination.Start start := prepared.start index
  have loop : Elimination.Loop index start final := Elimination.loop_run index start
  have moves : Relation.ReflTransGen (Elimination.Move index) start final := Elimination.moves_run
  have sameKind := kind_startOfElimination index gathered
  have closure : ∀ item : Item, item.IsOpen gathered.registry →
      ((final.registry.get item.number).place.isSome ↔ settled item) := by
    intro item open_
    have openStart : item.IsOpen start.registry := open_.congr fun number => (sameKind number).symm
    rw [Elimination.placed_iff_settled ready loop openStart]
    exact ⟨.congr sameKind, .congr fun number => (sameKind number).symm⟩
  have computes : ∀ item : Item, item.IsOpen gathered.registry →
      ((final.registry.get item.number).place.isSome ↔ final.Computes item.number) :=
    fun item open_ => Elimination.placed_iff_computes ready moves
      (open_.congr fun number => (sameKind number).symm)
  have reported : ∀ number, (final.registry.get number).kind = .unknown ↔
      (gathered.registry.get number).kind = .unknown ∧ ¬settled (.value number) := by
    intro number
    rw [Elimination.kind_eq_unknown_iff ready moves number,
      show (start.registry.get number).kind = _ from sameKind number]
    exact and_congr_right fun unknown => not_congr (closure (.value number) unknown)
  refine ⟨loop, fun number unknown => ⟨?_, closure (.value number) unknown⟩,
    fun number isState => closure (.rate number) isState, ?_⟩
  · exact (computes (.value number) unknown).symm.trans (closure (.value number) unknown)
  · rw [issues_classify, List.filter_filterMap, ← List.filterMap_eq_map, List.filterMap_filter]
    apply List.filterMap_congr
    intro number _
    rw [filter_openIssue?]
    change (if (final.registry.get number).kind = .unknown then _ else _) = _
    simp only [reported number, decide_eq_true_eq]
    rfl

/-- Two classes that are computed from each other, and one that is computed from a constant. -/
def copies : Gathered where
  registry :=
    [⟨0, 0, 0, .unknown, none, none⟩, ⟨1, 1, 1, .unknown, none, none⟩,
     ⟨2, 2, 2, .unknown, none, none⟩, ⟨3, 3, 3, .constant, none, none⟩]
  equations :=
    [.new (.apply .assignment (.reference 0) (.reference 1)) 0 [0, 1] [],
     .new (.apply .assignment (.reference 1) (.reference 0)) 0 [1, 0] [],
     .new (.apply .assignment (.reference 2) (.reference 3)) 0 [2, 3] []]
  issues := []

/-- A cycle stays outside of the closure, and a copy of a constant is inside. -/
theorem copies_closure :
    Prepared copies.registry copies.equations ∧
      Settled copies.registry copies.equations (.value 2) ∧
      ¬Settled copies.registry copies.equations (.value 0) := by
  have prepared : Prepared copies.registry copies.equations := by
    constructor
    case untouched => simp [copies, OrderedEquation.new]
    all_goals decide
  have closure := (run_settles_closure prepared (Index.ofTrees []) none none).2.1
  refine ⟨prepared, (closure 2 rfl).2.mp (by cbv), fun settled => ?_⟩
  have placed := (closure 0 rfl).2.mpr settled
  cbv at placed
  cases placed

end ComponentModel.Analysis
