import ComponentModel.Proofs.Elimination.Looks

/-!
# Reported declarations

A class is reported by the declaration that carries its initial value, until an equation computes
it: from then on the first declaration of the class in the component of that equation is reported.
For a state this is the equation of its rate, so that the units in which a state is kept may be
others than those of its initial value.
-/

namespace ComponentModel.Analysis

/-- The choice of an equation does not depend on what is known about the class. -/
theorem OrderedEquation.reportedFor_congr {index : Index} {one other : OrderedEquation}
    {first second : Record} (component : one.component = other.component)
    (declaration : first.declaration = second.declaration) :
    one.reportedFor index first = other.reportedFor index second := by
  rw [reportedFor, reportedFor, component, declaration]

namespace Elimination

open Relation (ReflTransGen)

variable {index : Index} {start state final : Elimination} {record : Nat}

/-- No move touches the declarations with the initial values. -/
theorem initialDeclaration_of_moves (moves : ReflTransGen (Move index) start state)
    (record : Nat) :
    (state.registry.get record).initialDeclaration =
      (start.registry.get record).initialDeclaration := by
  induction moves with
  | refl => rfl
  | tail _ move ih =>
      refine Eq.trans ?_ ih
      cases move with
      | reduce => rfl
      | mark | report | compute =>
          exact Registry.project_change Record.initialDeclaration fun _ => rfl

theorem get_report_of_ne (state : Elimination) {last : Nat} (declaration : Nat)
    (different : last ≠ record) :
    (state.report last declaration).registry.get record = state.registry.get record :=
  Registry.get_change_of_ne _ different

/-- As long as a state has no place, no equation has computed its rate. -/
theorem uncomputed_of_unplaced (ready : Start start) (moves : ReflTransGen (Move index) start state)
    (isState : (start.registry.get record).kind = .state)
    (unplaced : (state.registry.get record).place = none) :
    (state.registry.get record).kind = .state ∧ (state.registry.get record).equation = none := by
  cases standing_of_moves ready moves record with
  | untouched kind _ equation => exact ⟨kind.trans isState, equation⟩
  | twice given => cases isState.symm.trans given
  | value open_ => cases isState.symm.trans open_
  | rate _ _ place => simp [unplaced] at place

/-- What a look at an equation does to the records. -/
inductive RecordLook (index : Index) (state : Elimination) (number : Nat) : Registry → Prop
  | unchanged : RecordLook index state number state.registry
  | marked (last : Nat) : RecordLook index state number (state.mark last).registry
  | refused (equation : OrderedEquation) (item : Item)
      (unplaced : (state.registry.get item.number).place = none)
      (refused : ((state.reduced number equation).resolved
        (state.registry.get item.number).kind).isComputable = false) :
      RecordLook index state number (state.report item.number
        ((state.reduced number equation).reportedFor index
          (state.registry.get item.number))).registry
  | computed (equation : OrderedEquation) (item : Item)
      (found : state.equations[number]? = some equation)
      (unplaced : (state.registry.get item.number).place = none) :
      RecordLook index state number ((state.report item.number
        ((state.reduced number equation).reportedFor index
          (state.registry.get item.number))).compute number (state.reduced number equation)
            item.number).registry

theorem recordLook_step (index : Index) (state : Elimination) (number : Nat) :
    RecordLook index state number (state.step index number).1.registry := by
  cases found : state.equations[number]? with
  | none =>
      have same : state.step index number = (state, false) := by simp [step, found]
      rw [same]
      exact .unchanged
  | some equation =>
      cases waiting : equation.order with
      | some order =>
          rw [step_of_ordered found (by simp [waiting])]
          exact .unchanged
      | none =>
          rw [step_of_waiting found waiting]
          cases equation.constrainedTwice? state.registry with
          | some last => exact .marked last
          | none =>
              cases single : (state.reduced number equation).single? with
              | none => exact .unchanged
              | some last =>
                  obtain ⟨item, items, rfl⟩ := OrderedEquation.single?_eq_some.mp single
                  have open_ : item ∈ (state.reduced number equation).items := by simp [items]
                  have unplaced := Item.place_eq_none
                    (OrderedEquation.isSettled_of_mem_reduce _ _ _ open_)
                  cases computable : ((state.reduced number equation).resolved
                      (state.registry.get item.number).kind).isComputable with
                  | false =>
                      simp only [assign_of_refused computable]
                      exact .refused equation item unplaced computable
                  | true =>
                      have assigned := assign_of_computable index number computable
                      have same := congrArg (fun checked => checked.1.registry) assigned
                      simp only at same ⊢
                      rw [same]
                      exact .computed equation item found unplaced

/-- The declaration that is reported for a class: the one from the start, or the one that the
equation has chosen which computes the class. -/
structure Reports (index : Index) (start : Elimination) (registry : Registry) (record : Nat) :
    Prop where
  kept : (registry.get record).equation = none →
    (registry.get record).declaration = (start.registry.get record).declaration
  moved : ∀ number, (registry.get record).equation = some number →
    ∃ source, start.equations[number]? = some source ∧
      (registry.get record).declaration = source.reportedFor index (start.registry.get record)

namespace Reports

variable {registry changed : Registry}

/-- What is reported depends on the declaration and the equation of a record. -/
theorem congr (reports : Reports index start registry record)
    (declaration : (changed.get record).declaration = (registry.get record).declaration)
    (equation : (changed.get record).equation = (registry.get record).equation) :
    Reports index start changed record := by
  constructor
  · rw [declaration, equation]
    exact reports.kept
  · rw [declaration, equation]
    exact reports.moved

/-- A look reports another declaration of a state only when its equation computes the rate. -/
theorem step (ready : Start start) (moves : ReflTransGen (Move index) start state)
    (isState : (start.registry.get record).kind = .state)
    (reports : Reports index start state.registry record) (number : Nat) :
    Reports index start (state.step index number).1.registry record := by
  have look := recordLook_step index state number
  generalize (state.step index number).1.registry = after at look
  cases look with
  | unchanged => exact reports
  | marked last =>
      exact reports.congr (Registry.project_change Record.declaration fun _ => rfl)
        (equation_mark ..)
  | refused equation item unplaced refused =>
      have different : item.number ≠ record := by
        rintro rfl
        obtain ⟨kind, -⟩ := uncomputed_of_unplaced ready moves isState unplaced
        rw [kind] at refused
        cases refused
      refine reports.congr ?_ ?_
      all_goals rw [get_report_of_ne _ _ different]
  | computed equation item found unplaced =>
      by_cases same : item.number = record
      · subst same
        obtain ⟨kind, unnamed⟩ := uncomputed_of_unplaced ready moves isState unplaced
        obtain ⟨source, foundSource, -, component, -⟩ := origin_of_moves moves found
        have inside : item.number < state.registry.length := by
          by_contra outside
          rw [Registry.get_of_length_le (Nat.le_of_not_lt outside)] at kind
          cases kind
        have chosen : (state.reduced number equation).reportedFor index
            (state.registry.get item.number) =
              source.reportedFor index (start.registry.get item.number) :=
          OrderedEquation.reportedFor_congr component (reports.kept unnamed)
        have length : item.number < (state.report item.number
            ((state.reduced number equation).reportedFor index
              (state.registry.get item.number))).registry.length := by
          simpa [report] using inside
        rw [chosen] at length ⊢
        constructor
        · intro unnamed
          rw [get_compute_self length] at unnamed
          cases unnamed
        · intro other named
          rw [get_compute_self length] at named ⊢
          obtain rfl := Option.some.inj named
          refine ⟨source, foundSource, ?_⟩
          exact congrArg Record.declaration (Registry.get_change_self _ inside)
      · refine reports.congr ?_ ?_
        all_goals rw [get_compute_of_ne same, get_report_of_ne _ _ same]

end Reports

/-- A state is reported by the declaration with its initial value as long as no equation computes
its rate, and else by the choice of that equation. -/
theorem Loop.reports (ready : Start start) (loop : Loop index start final)
    (isState : (start.registry.get record).kind = .state) :
    Reports index start final.registry record := by
  refine loop.induction (fun state => Reports index start state.registry record)
    (fun {state number} moves reports => reports.step ready moves isState number) .refl ?_
  constructor
  · exact fun _ => rfl
  · intro number named
    rw [ready.uncomputed record] at named
    cases named

end Elimination

end ComponentModel.Analysis
