import ComponentModel.Code.Generation

/-!
# Functions that the code brings along

Generated code calls a function wherever the language of a profile has no operator for what an
equation uses. What an equation uses, what is written as a call and what the code brings along are
three case distinctions over the same functions. They agree: the code brings along just the functions
that it calls, as far as the profile defines them, each of them once and in order.
-/

namespace ComponentModel.Equation.Expr

variable {operator : Operator} {left right expr : Expr}

/-- An expression stands somewhere in another one, or is the whole of it. -/
inductive Inside (part : Expr) : Expr → Prop
  | here : Inside part part
  | left {operator : Operator} {left right : Expr} (inside : Inside part left) :
      Inside part (.apply operator left right)
  | right {operator : Operator} {left right : Expr} (inside : Inside part right) :
      Inside part (.apply operator left right)

/-- An expression uses an operator if an application of it stands somewhere inside. -/
theorem uses_iff_inside : expr.uses operator = true ↔
    ∃ left right, Inside (.apply operator left right) expr := by
  constructor
  · intro uses
    induction expr with
    | absent => cases uses
    | reference declaration => cases uses
    | number text => cases uses
    | apply other left right ihLeft ihRight =>
        simp only [Expr.uses, Bool.or_eq_true, beq_iff_eq] at uses
        rcases uses with (rfl | onLeft) | onRight
        · exact ⟨left, right, .here⟩
        · obtain ⟨one, two, inside⟩ := ihLeft onLeft
          exact ⟨one, two, .left inside⟩
        · obtain ⟨one, two, inside⟩ := ihRight onRight
          exact ⟨one, two, .right inside⟩
  · rintro ⟨one, two, inside⟩
    induction inside with
    | here => simp [Expr.uses]
    | left _ ih => simp [Expr.uses, ih]
    | right _ ih => simp [Expr.uses, ih]

end ComponentModel.Equation.Expr

namespace ComponentModel.Code

open Analysis (AnalysedModel)
open Equation (Expr MathFunction)

/-! ## Calls and operators -/

/-- The word for a function in an expression, whether it is called or written as an operator. -/
def wordOf : MathFunction → TextField
  | .equal => .equal
  | .unequal => .unequal
  | .less => .less
  | .atMost => .atMost
  | .greater => .greater
  | .atLeast => .atLeast
  | .conjunction => .conjunction
  | .disjunction => .disjunction
  | .exclusive => .exclusive
  | .negation => .negation
  | .minimum => .minimum
  | .maximum => .maximum
  | .sec => .sec
  | .csc => .csc
  | .cot => .cot
  | .sech => .sech
  | .csch => .csch
  | .coth => .coth
  | .asec => .asec
  | .acsc => .acsc
  | .acot => .acot
  | .asech => .asech
  | .acsch => .acsch
  | .acoth => .acoth

/-- The arguments in a call: comparisons, connectives and extrema have two, the others one. -/
def argumentsOf (function : MathFunction) (left right : String) : List String :=
  match function with
  | .equal | .unequal | .less | .atMost | .greater | .atLeast | .conjunction | .disjunction
  | .exclusive | .minimum | .maximum => [left, right]
  | _ => [left]

namespace Profile

variable {profile : Profile} {function : MathFunction}

/-- A function as an operator: a negation in front of its operand, all others between two. -/
def operation (profile : Profile) (function : MathFunction) (left right : Operand) : String :=
  match function with
  | .negation =>
      profile.text .negation ++ grouped (profile.isLoose left.expr || isAdditive left.expr ||
        isMultiplicative left.expr || profile.isPower left.expr) left.code
  | other => profile.between other.operator (profile.text (wordOf other)) left right

/-- Wherever it stands, a function is written as a call. -/
def Calls (profile : Profile) (function : MathFunction) : Prop :=
  ∀ reference rate left right,
    profile.code reference rate (.apply function.operator left right) =
      call (profile.text (wordOf function)) (argumentsOf function
        (profile.code reference false left) (profile.code reference false right))

/-- Wherever it stands, a function is written as an operator of the language. -/
def Operates (profile : Profile) (function : MathFunction) : Prop :=
  ∀ reference rate left right,
    profile.code reference rate (.apply function.operator left right) =
      profile.operation function ⟨left, profile.code reference false left⟩
        ⟨right, profile.code reference false right⟩

/-- The flags of a profile give the language an operator for a function. -/
def hasOperator (profile : Profile) (function : MathFunction) : Bool :=
  match nativeFlag? function with
  | some flag => profile.flag flag
  | none => false

theorem code_apply_operator (profile : Profile) (function : MathFunction)
    (reference : Bool → Nat → String) (rate : Bool) (left right : Expr) :
    profile.code reference rate (.apply function.operator left right) =
      if profile.hasOperator function then
        profile.operation function ⟨left, profile.code reference false left⟩
          ⟨right, profile.code reference false right⟩
      else
        call (profile.text (wordOf function)) (argumentsOf function
          (profile.code reference false left) (profile.code reference false right)) := by
  cases function <;> rfl

/-- Without operands, nothing but the word is left of an operation. -/
theorem operation_absent (profile : Profile) (function : MathFunction) :
    profile.operation function ⟨.absent, ""⟩ ⟨.absent, ""⟩ = profile.text (wordOf function) := by
  have alone (word : String) : "" ++ word ++ "" = word := by simp
  cases function with
  | negation => exact String.append_empty
  | _ => exact alone _

theorem call_ne (word : String) (arguments : List String) : call word arguments ≠ word := by
  intro same
  have lengths := congrArg String.length same
  simp only [call, String.length_append] at lengths
  have opening : "(".length = 1 := rfl
  omega

/-- No function is written in both ways. -/
theorem operation_ne_call (profile : Profile) (function : MathFunction) (arguments : List String) :
    profile.operation function ⟨.absent, ""⟩ ⟨.absent, ""⟩ ≠
      call (profile.text (wordOf function)) arguments := by
  rw [operation_absent]
  exact (call_ne _ _).symm

theorem calls_iff : profile.Calls function ↔ profile.hasOperator function = false := by
  constructor
  · intro calls
    have written := calls (fun _ _ => "") false .absent .absent
    rw [code_apply_operator] at written
    cases isOperator : profile.hasOperator function with
    | false => rfl
    | true =>
        rw [isOperator, if_pos rfl] at written
        exact absurd written (operation_ne_call profile function _)
  · intro noOperator reference rate left right
    rw [code_apply_operator, noOperator]
    rfl

theorem operates_iff : profile.Operates function ↔ profile.hasOperator function = true := by
  constructor
  · intro operates
    have written := operates (fun _ _ => "") false .absent .absent
    rw [code_apply_operator] at written
    cases isOperator : profile.hasOperator function with
    | false =>
        rw [isOperator, if_neg nofun] at written
        exact absurd written.symm (operation_ne_call profile function _)
    | true => rfl
  · intro isOperator reference rate left right
    rw [code_apply_operator, isOperator]
    rfl

/-! ## What the code brings along -/

theorem helper?_eq (profile : Profile) (function : MathFunction) :
    profile.helper? function =
      if profile.hasOperator function || (profile.function function).implementation == "" then none
      else some (profile.function function) :=
  rfl

/-- The functions that the code for a model brings along, before their texts are looked up. -/
def supplied (profile : Profile) (model : AnalysedModel) : List MathFunction :=
  model.functions.filter fun function => (profile.helper? function).isSome

theorem helpers_eq (profile : Profile) (model : AnalysedModel) :
    profile.helpers model = (profile.supplied model).map profile.function := by
  unfold helpers supplied
  induction model.functions with
  | nil => rfl
  | cons function functions ih =>
      cases found : profile.helper? function with
      | none => simpa [List.filterMap_cons, List.filter_cons, found] using ih
      | some helper =>
          have isOwn : helper = profile.function function := by
            rw [helper?_eq, Option.ite_none_left_eq_some] at found
            exact (Option.some.inj found.2).symm
          simpa [List.filterMap_cons, List.filter_cons, found, isOwn] using ih

theorem mem_supplied {model : AnalysedModel} : function ∈ profile.supplied model ↔
    model.needs function = true ∧ profile.hasOperator function = false ∧
      (profile.function function).implementation ≠ "" := by
  have isListed : function ∈ MathFunction.all := by cases function <;> decide
  rw [supplied, List.mem_filter, AnalysedModel.functions, List.mem_filter, helper?_eq]
  simp [isListed]

theorem supplied_sublist (profile : Profile) (model : AnalysedModel) :
    (profile.supplied model).Sublist MathFunction.all :=
  (List.filter_sublist).trans List.filter_sublist

theorem needs_iff {model : AnalysedModel} : model.needs function = true ↔
    ∃ equation ∈ model.equations, ∃ left right,
      Expr.Inside (.apply function.operator left right) equation.expr := by
  rw [AnalysedModel.needs, List.any_eq_true]
  simp only [Expr.uses_iff_inside]

/-- Every function is written either as a call or as an operator, and the code brings along the
functions that the equations apply somewhere, that are written as calls and that the profile
defines: each of them once, and in the order of all functions. -/
theorem exists_supplied (profile : Profile) (model : AnalysedModel) :
    ∃ functions : List MathFunction,
      profile.helpers model = functions.map profile.function ∧
      functions.Sublist MathFunction.all ∧ functions.Nodup ∧
      ∀ function, (function ∈ functions ↔
        (∃ equation ∈ model.equations, ∃ left right,
          Expr.Inside (.apply function.operator left right) equation.expr) ∧
        profile.Calls function ∧ (profile.function function).implementation ≠ "") ∧
        (profile.Calls function ↔ ¬profile.Operates function) := by
  have ordered := profile.supplied_sublist model
  have distinct : MathFunction.all.Nodup := by decide
  refine ⟨profile.supplied model, profile.helpers_eq model, ordered, distinct.sublist ordered, ?_⟩
  intro function
  constructor
  · rw [mem_supplied, needs_iff, calls_iff]
  · rw [calls_iff, operates_iff, Bool.not_eq_true]

end Profile

end ComponentModel.Code
