import ComponentModel.Proofs.Elimination.Moves

/-!
# Passes until nothing changes

An elimination looks at all equations until a pass gives none of them an order. Every pass that
goes on gives an order to an equation that had none, so the bound on the number of passes is never
reached: what a run returns is the outcome of the unbounded loop.
-/

namespace ComponentModel.Analysis

namespace Elimination

open Relation (ReflTransGen)

/-- The numbers of all equations. -/
def numbers (state : Elimination) : List Nat :=
  List.range state.equations.length

/-- The number of equations with an order. -/
def orderedCount (state : Elimination) : Nat :=
  state.equations.countP fun equation => equation.order.isSome

/-- Looking at all equations until a pass orders none of them leads from one state to another. -/
inductive Loop (index : Index) : Elimination → Elimination → Prop
  | stop {state : Elimination} (idle : (state.pass index state.numbers).2 = false) :
      Loop index state (state.pass index state.numbers).1
  | again {state final : Elimination} (busy : (state.pass index state.numbers).2 = true)
      (rest : Loop index (state.pass index state.numbers).1 final) : Loop index state final

variable {index : Index} {state : Elimination}

theorem pass_cons (number : Nat) (rest : List Nat) :
    state.pass index (number :: rest) =
      (((state.step index number).1.pass index rest).1,
        (state.step index number).2 || ((state.step index number).1.pass index rest).2) := rfl

/-! ## Everything is made of moves -/

theorem moves_pass (numbers : List Nat) :
    ReflTransGen (Move index) state (state.pass index numbers).1 := by
  induction numbers generalizing state with
  | nil => exact .refl
  | cons number rest ih => exact (moves_step index state number).trans ih

theorem moves_runFor (passes : Nat) :
    ReflTransGen (Move index) state (state.runFor index passes) := by
  induction passes generalizing state with
  | zero => exact .refl
  | succ passes ih =>
      have moves : ReflTransGen (Move index) state (state.pass index state.numbers).1 :=
        moves_pass state.numbers
      unfold runFor
      split
      case h_1 next outcome =>
        rw [numbers, outcome] at moves
        exact moves.trans ih
      case h_2 next outcome =>
        rw [numbers, outcome] at moves
        exact moves

theorem moves_run : ReflTransGen (Move index) state (state.run index) :=
  moves_runFor _

/-! ## The loop ends -/

@[simp] theorem length_setEquation (number : Nat) (equation : OrderedEquation) :
    (state.setEquation number equation).equations.length = state.equations.length := by
  simp [setEquation]

theorem length_equations_of_move {next : Elimination} (move : Move index state next) :
    next.equations.length = state.equations.length := by
  cases move <;> simp [mark, report, compute]

theorem length_equations_of_moves {next : Elimination}
    (moves : ReflTransGen (Move index) state next) :
    next.equations.length = state.equations.length := by
  induction moves with
  | refl => rfl
  | tail _ move ih => rw [length_equations_of_move move, ih]

theorem orderedCount_le (state : Elimination) : state.orderedCount ≤ state.equations.length :=
  List.countP_le_length

/-- Replacing an equation without an order by another one without an order. -/
theorem orderedCount_set_waiting {number : Nat} {equation replacement : OrderedEquation}
    (found : state.equations[number]? = some equation) (waiting : equation.order = none)
    (still : replacement.order = none) :
    (state.equations.set number replacement).countP (fun equation => equation.order.isSome) =
      state.orderedCount := by
  obtain ⟨inside, rfl⟩ := List.getElem?_eq_some_iff.mp found
  rw [List.countP_set inside]
  simp [waiting, still, orderedCount]

/-- Replacing an equation without an order by one with an order. -/
theorem orderedCount_set_ordered {number : Nat} {equation replacement : OrderedEquation}
    (found : state.equations[number]? = some equation) (waiting : equation.order = none)
    (done : replacement.order.isSome) :
    (state.equations.set number replacement).countP (fun equation => equation.order.isSome) =
      state.orderedCount + 1 := by
  obtain ⟨inside, rfl⟩ := List.getElem?_eq_some_iff.mp found
  rw [List.countP_set inside]
  simp [waiting, done, orderedCount]

/-- A look that says so has given an order to one more equation. -/
theorem orderedCount_step (index : Index) (state : Elimination) (number : Nat) :
    (state.step index number).1.orderedCount =
      state.orderedCount + (state.step index number).2.toNat := by
  have look : Look index state number (state.step index number) := look_step
  generalize state.step index number = outcome at look
  cases look with
  | idle => rfl
  | twice => rfl
  | several equation found waiting => exact orderedCount_set_waiting found waiting waiting
  | refused equation item declaration found waiting =>
      exact orderedCount_set_waiting found waiting waiting
  | computed equation item declaration found waiting =>
      rw [compute_setEquation]
      exact orderedCount_set_ordered found waiting rfl

theorem orderedCount_le_pass (numbers : List Nat) :
    state.orderedCount ≤ (state.pass index numbers).1.orderedCount := by
  induction numbers generalizing state with
  | nil => exact Nat.le_refl _
  | cons number rest ih =>
      calc state.orderedCount
        _ ≤ (state.step index number).1.orderedCount := by
            rw [orderedCount_step]
            exact Nat.le_add_right _ _
        _ ≤ _ := ih

/-- A pass that says so has given an order to at least one more equation. -/
theorem orderedCount_lt_pass {numbers : List Nat} (busy : (state.pass index numbers).2 = true) :
    state.orderedCount < (state.pass index numbers).1.orderedCount := by
  induction numbers generalizing state with
  | nil => cases busy
  | cons number rest ih =>
      rw [pass_cons] at busy ⊢
      have counted := orderedCount_step index state number
      have rest_le : (state.step index number).1.orderedCount ≤
          ((state.step index number).1.pass index rest).1.orderedCount :=
        orderedCount_le_pass rest
      cases here : (state.step index number).2 with
      | true =>
          rw [here, Bool.toNat_true] at counted
          simp only
          omega
      | false =>
          rw [here, Bool.toNat_false, Nat.add_zero] at counted
          rw [here, Bool.false_or] at busy
          have later := ih busy
          simp only
          omega

theorem loop_runFor {passes : Nat}
    (enough : state.equations.length - state.orderedCount < passes) :
    Loop index state (state.runFor index passes) := by
  induction passes generalizing state with
  | zero => omega
  | succ passes ih =>
      have length : (state.pass index state.numbers).1.equations.length =
          state.equations.length :=
        length_equations_of_moves (moves_pass state.numbers)
      have count := orderedCount_le (state.pass index state.numbers).1
      cases outcome : (state.pass index state.numbers).2 with
      | true =>
          have unfolded : state.runFor index (passes + 1) =
              (state.pass index state.numbers).1.runFor index passes := by
            rw [runFor.eq_2]
            split <;> simp_all [numbers]
          have more := orderedCount_lt_pass outcome
          rw [unfolded]
          exact .again outcome (ih (by omega))
      | false =>
          have unfolded : state.runFor index (passes + 1) =
              (state.pass index state.numbers).1 := by
            rw [runFor.eq_2]
            split <;> simp_all [numbers]
          rw [unfolded]
          exact .stop outcome

/-- A run is the loop: its bound on the number of passes is never reached. -/
theorem loop_run (index : Index) (state : Elimination) : Loop index state (state.run index) :=
  loop_runFor (by omega)

/-- Behind a loop lies a pass that gave no equation an order. -/
theorem Loop.exists_last {final : Elimination} (loop : Loop index state final) :
    ∃ last, ReflTransGen (Move index) state last ∧ (last.pass index last.numbers).2 = false ∧
      final = (last.pass index last.numbers).1 := by
  induction loop with
  | @stop state idle => exact ⟨state, .refl, idle, rfl⟩
  | again _ _ ih =>
      obtain ⟨last, moves, idle, same⟩ := ih
      exact ⟨last, (moves_pass _).trans moves, idle, same⟩

end Elimination

end ComponentModel.Analysis
