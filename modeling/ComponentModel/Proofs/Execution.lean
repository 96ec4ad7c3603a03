import ComponentModel.Proofs.Program
import Mathlib.Logic.Function.Basic

/-!
# Running generated code

A procedure runs its statements one after the other, each on what the ones before have left in the
arrays. What numbers and operators mean is left open, so values may be real numbers, machine numbers
or anything else. Statements that assign to different elements, none of which is read before it is
assigned to, leave every one of these elements with the value that its right-hand side has in the
end.
-/

namespace ComponentModel

namespace Equation

/-- What is meant by numbers, by operators and by a missing expression. -/
structure Arithmetic (K : Type*) where
  absent : K
  number : String → K
  operator : Operator → K → K → K

variable {K : Type*} (arithmetic : Arithmetic K)

namespace Expr

/-- The value of an expression, where `reference` is what a declaration stands for, its rate if it
is directly inside a derivative. A derivative is what its second child stands for then. -/
def evaluate (reference : (rate : Bool) → Nat → K) (rate : Bool) : Expr → K
  | absent => arithmetic.absent
  | Expr.reference declaration => reference rate declaration
  | number written => arithmetic.number written
  | apply operator left right =>
      let first := left.evaluate reference (operator == .diff)
      let second := right.evaluate reference (operator == .diff)
      if operator = .diff then second else arithmetic.operator operator first second

/-- The value of an expression depends on nothing but what its mentions stand for. -/
theorem evaluate_congr {one other : Bool → Nat → K} (expr : Expr) (role : Role)
    (same : ∀ mention ∈ expr.mentions role,
      one (mention.1 == .differentiated) mention.2 =
        other (mention.1 == .differentiated) mention.2) :
    expr.evaluate arithmetic one (role == .differentiated) =
      expr.evaluate arithmetic other (role == .differentiated) := by
  induction expr generalizing role with
  | absent => rfl
  | number => rfl
  | reference declaration => exact same (role, declaration) (by simp [mentions])
  | apply operator left right leftHypothesis rightHypothesis =>
      rw [mentions] at same
      simp only [evaluate, Code.isDiff_eq_childRole operator role]
      rw [leftHypothesis _ fun mention inLeft => same mention (List.mem_append_left _ inLeft),
        rightHypothesis _ fun mention inRight => same mention (List.mem_append_right _ inRight)]

end Expr

end Equation

namespace Code

open Analysis (AnalysedEquation AnalysedModel)
open Equation (Arithmetic Expr Role)

variable {K : Type*}

/-- The contents of the arrays, and the variable of integration that procedures are called with. -/
structure Memory (K : Type*) where
  integration : K
  element : Slot → K

namespace Memory

/-- Store a value in an element. -/
def store (memory : Memory K) (slot : Slot) (value : K) : Memory K :=
  { memory with element := Function.update memory.element slot value }

@[simp] theorem integration_store (memory : Memory K) (slot : Slot) (value : K) :
    (memory.store slot value).integration = memory.integration :=
  rfl

@[simp] theorem element_store_self (memory : Memory K) (slot : Slot) (value : K) :
    (memory.store slot value).element slot = value :=
  Function.update_self ..

theorem element_store_of_ne (memory : Memory K) {slot other : Slot} (different : other ≠ slot)
    (value : K) : (memory.store slot value).element other = memory.element other :=
  Function.update_of_ne different ..

/-- What is kept in an element, or the variable of integration. -/
def read (memory : Memory K) (slot? : Option Slot) : K :=
  (slot?.map memory.element).getD memory.integration

variable (arithmetic : Arithmetic K) (analysed : AnalysedModel)

/-- What a declaration stands for. -/
def reference (memory : Memory K) (rate : Bool) (declaration : Nat) : K :=
  match analysed.binding? declaration with
  | some (type, place) => memory.read (Slot.of? rate type place)
  | none => arithmetic.operator .undefined arithmetic.absent arithmetic.absent

/-- The value of an expression where the arrays have these contents. -/
def value (memory : Memory K) (expr : Expr) : K :=
  expr.evaluate arithmetic (memory.reference arithmetic analysed) false

variable {analysed}

/-- The value of an expression depends on the elements that it mentions. -/
theorem value_congr {one other : Memory K} {expr : Expr}
    (integration : one.integration = other.integration)
    (same : ∀ slot ∈ (expr.mentions .plain).filterMap (slot? analysed),
      one.element slot = other.element slot) :
    one.value arithmetic analysed expr = other.value arithmetic analysed expr := by
  refine expr.evaluate_congr arithmetic .plain fun mention mentioned => ?_
  unfold reference
  cases bound : analysed.binding? mention.2 with
  | none => rfl
  | some binding =>
      cases kept : Slot.of? (mention.1 == .differentiated) binding.1 binding.2 with
      | none => simp [read, kept, integration]
      | some slot =>
          have listed : slot ∈ (expr.mentions .plain).filterMap (slot? analysed) :=
            List.mem_filterMap.mpr ⟨mention, mentioned, by rw [slot?, bound]; exact kept⟩
          simp [read, kept, same slot listed]

end Memory

/-! ## Statements -/

namespace Statement

variable (arithmetic : Arithmetic K) (analysed : AnalysedModel)

/-- The value that a statement stores. -/
def value (memory : Memory K) : Statement → K
  | literal _ written => arithmetic.number written
  | copy _ type place => memory.read (Slot.of? false type place)
  | equation result =>
      memory.value arithmetic analysed ((result.expr.assignment?.map Prod.snd).getD result.expr)

/-- Run a statement. What is no assignment to an element stores nothing. -/
def run (statement : Statement) (memory : Memory K) : Memory K :=
  match statement.target? analysed with
  | some slot => memory.store slot (statement.value arithmetic analysed memory)
  | none => memory

variable {analysed}

@[simp] theorem integration_run (statement : Statement) (memory : Memory K) :
    (statement.run arithmetic analysed memory).integration = memory.integration := by
  unfold run
  split <;> rfl

theorem element_run_self {statement : Statement} {slot : Slot} (memory : Memory K)
    (assigns : statement.target? analysed = some slot) :
    (statement.run arithmetic analysed memory).element slot =
      statement.value arithmetic analysed memory := by
  simp [run, assigns]

theorem element_run_of_ne {statement : Statement} {slot : Slot} (memory : Memory K)
    (different : statement.target? analysed ≠ some slot) :
    (statement.run arithmetic analysed memory).element slot = memory.element slot := by
  unfold run
  split
  case h_1 other assigns =>
    refine memory.element_store_of_ne ?_ _
    rintro rfl
    exact different assigns
  case h_2 => rfl

/-- The value of a statement depends on the elements that it reads. -/
theorem value_congr {one other : Memory K} {statement : Statement}
    (integration : one.integration = other.integration)
    (same : ∀ slot ∈ statement.reads analysed, one.element slot = other.element slot) :
    statement.value arithmetic analysed one = statement.value arithmetic analysed other := by
  cases statement with
  | literal => rfl
  | copy _ type place =>
      simp only [value, Memory.read]
      cases kept : Slot.of? false type place with
      | none => exact integration
      | some slot => exact same slot (by simp [reads, kept])
  | equation result => exact Memory.value_congr arithmetic integration same

end Statement

/-! ## Procedures -/

namespace Program

variable (arithmetic : Arithmetic K) (analysed : AnalysedModel)

/-- Run statements one after the other. -/
def run (statements : List Statement) (memory : Memory K) : Memory K :=
  statements.foldl (fun memory statement => statement.run arithmetic analysed memory) memory

/-- A later statement neither changes what an earlier one has read nor assigns to its target. -/
def KeepsClear (earlier later : Statement) : Prop :=
  ∀ slot, later.target? analysed = some slot →
    slot ∉ earlier.reads analysed ∧ earlier.target? analysed ≠ some slot

variable {analysed} {statements : List Statement}

theorem run_cons (head : Statement) (rest : List Statement) (memory : Memory K) :
    run arithmetic analysed (head :: rest) memory =
      run arithmetic analysed rest (head.run arithmetic analysed memory) :=
  rfl

@[simp] theorem integration_run (memory : Memory K) :
    (run arithmetic analysed statements memory).integration = memory.integration := by
  induction statements generalizing memory with
  | nil => rfl
  | cons head rest ih => exact (ih _).trans (head.integration_run arithmetic memory)

/-- What no statement assigns to keeps its value. -/
theorem element_run_of_untouched {slot : Slot}
    (untouched : ∀ statement ∈ statements, statement.target? analysed ≠ some slot)
    (memory : Memory K) :
    (run arithmetic analysed statements memory).element slot = memory.element slot := by
  induction statements generalizing memory with
  | nil => rfl
  | cons head rest ih =>
      have later := ih (fun statement inRest => untouched statement (List.mem_cons_of_mem _ inRest))
        (head.run arithmetic analysed memory)
      exact later.trans (head.element_run_of_ne arithmetic memory (untouched head (by simp)))

/-- Where no statement reads its own target, or what a later one assigns to, every assignment holds
in the end. -/
theorem element_run (clear : statements.Pairwise (KeepsClear analysed))
    (own : ∀ statement ∈ statements, ∀ slot, statement.target? analysed = some slot →
      slot ∉ statement.reads analysed)
    {statement : Statement} (membership : statement ∈ statements) {slot : Slot}
    (assigns : statement.target? analysed = some slot) (memory : Memory K) :
    (run arithmetic analysed statements memory).element slot =
      statement.value arithmetic analysed (run arithmetic analysed statements memory) := by
  induction statements generalizing memory with
  | nil => cases membership
  | cons head rest ih =>
      obtain ⟨headClear, restClear⟩ := List.pairwise_cons.mp clear
      rw [run_cons]
      rcases List.mem_cons.mp membership with rfl | inRest
      · -- What the first statement has stored and read is left alone from now on.
        have kept : ∀ other, other = slot ∨ other ∈ statement.reads analysed →
            (run arithmetic analysed rest (statement.run arithmetic analysed memory)).element
              other = (statement.run arithmetic analysed memory).element other := by
          intro other given
          refine element_run_of_untouched arithmetic (fun later inRest touches => ?_) _
          obtain ⟨unread, different⟩ := headClear later inRest other touches
          rcases given with rfl | isRead
          · exact different assigns
          · exact unread isRead
        calc (run arithmetic analysed rest (statement.run arithmetic analysed memory)).element slot
            = (statement.run arithmetic analysed memory).element slot := kept slot (Or.inl rfl)
          _ = statement.value arithmetic analysed memory :=
              statement.element_run_self arithmetic memory assigns
          _ = _ := by
              refine statement.value_congr arithmetic (by simp) fun other isRead => ?_
              have apart : statement.target? analysed ≠ some other := fun same =>
                own statement membership other same isRead
              exact ((kept other (Or.inr isRead)).trans
                (statement.element_run_of_ne arithmetic memory apart)).symm
      · exact ih restClear (fun other inRest => own other (List.mem_cons_of_mem _ inRest)) inRest _

end Program

end Code

end ComponentModel
