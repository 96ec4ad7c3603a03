import ComponentModel.Code.Generation
import ComponentModel.Proofs.Explicit
import ComponentModel.Proofs.Scheduling

/-!
# Generated code as a program

The procedures of an implementation are lists of statements. A statement assigns to one element of
the arrays of states, rates and variables, and reads others. What it reads are the mentions on the
right-hand side of its equation: its text names them, and depends on no other names.
-/

namespace ComponentModel.Code

open Analysis (AnalysedEquation AnalysedModel AnalysedVariable VariableType)
open Equation (Expr Role)

/-! ## Slots -/

/-- An element of one of the arrays of generated code. -/
inductive Slot where
  | state (place : Nat)
  | rate (place : Nat)
  | other (place : Nat)
  deriving Repr, DecidableEq

namespace Slot

/-- Where the value or the rate of a variable is kept. The variable of integration is an argument
of the procedures and is not kept in an array. -/
def of? (rate : Bool) (type : VariableType) (place : Nat) : Option Slot :=
  match type with
  | .integrationVariable => none
  | .state => some (if rate then .rate place else .state place)
  | .constant | .computedConstant | .algebraic => some (.other place)

/-- The text of a slot. -/
def text (profile : Profile) : Slot → String
  | state place => profile.variableText false .state place
  | rate place => profile.variableText true .state place
  | other place => profile.variableText false .algebraic place

/-- A variable is written as its slot. -/
theorem text_of? (profile : Profile) {rate : Bool} {type : VariableType} {place : Nat} {slot : Slot}
    (kept : of? rate type place = some slot) :
    slot.text profile = profile.variableText rate type place := by
  cases type <;> cases rate <;> cases kept <;> rfl

end Slot

/-- The slot that a mention stands for. -/
def slot? (analysed : AnalysedModel) (mention : Role × Nat) : Option Slot :=
  (analysed.binding? mention.2).bind fun binding =>
    Slot.of? (mention.1 == .differentiated) binding.1 binding.2

/-! ## Statements -/

/-- A statement of generated code. -/
inductive Statement where
  /-- A number is stored. -/
  | literal (target : AnalysedVariable) (written : String)
  /-- The value of a variable is stored in another one. -/
  | copy (target : AnalysedVariable) (type : VariableType) (place : Nat)
  | equation (result : AnalysedEquation)

namespace Statement

variable (analysed : AnalysedModel)

/-- The line of a statement. -/
def text (profile : Profile) : Statement → String
  | literal target written => profile.assignmentLine target (doubleText written)
  | copy target type place => profile.assignmentLine target (profile.variableText false type place)
  | equation result =>
      profile.line (profile.code (profile.referenceText analysed) false result.expr)

/-- The slot that a statement assigns to. -/
def target? : Statement → Option Slot
  | literal target _ => Slot.of? false target.type target.place
  | copy target _ _ => Slot.of? false target.type target.place
  | equation result => result.expr.assignment?.bind fun assignment => slot? analysed assignment.1

/-- The slots that a statement reads. -/
def reads : Statement → List Slot
  | literal _ _ => []
  | copy _ type place => (Slot.of? false type place).toList
  | equation result =>
      let value := (result.expr.assignment?.map Prod.snd).getD result.expr
      (value.mentions .plain).filterMap (slot? analysed)

/-- The line of a statement is an assignment to its target. -/
theorem text_of_target {statement : Statement} {slot : Slot} (profile : Profile)
    (assigns : statement.target? analysed = some slot) :
    ∃ value, statement.text analysed profile =
      profile.line (slot.text profile ++ profile.text .assignment ++ value) := by
  cases statement with
  | literal target written =>
      rw [Slot.text_of? profile assigns]
      exact ⟨doubleText written, rfl⟩
  | copy target type place =>
      rw [Slot.text_of? profile assigns]
      exact ⟨profile.variableText false type place, rfl⟩
  | equation result =>
      obtain ⟨⟨mention, right⟩, isAssignment, kept⟩ := Option.bind_eq_some_iff.mp assigns
      obtain ⟨binding, bound, kept⟩ := Option.bind_eq_some_iff.mp kept
      refine ⟨profile.code (profile.referenceText analysed) false right, ?_⟩
      rw [text, profile.code_of_assignment _ isAssignment, Slot.text_of? profile kept,
        Profile.referenceText, bound]

end Statement

/-- What stands directly inside a derivative is differentiated. -/
theorem isDiff_eq_childRole (operator : Equation.Operator) (role : Role) :
    (operator == .diff) = (Equation.childRole operator role == .differentiated) := by
  unfold Equation.childRole Equation.boundRole Equation.argumentRole
  cases role <;> cases operator <;> rfl

/-- The mentions that the text of an expression is made of: a derivative is written as its second
child. -/
def written (role : Role) : Expr → List (Role × Nat)
  | .absent => []
  | .reference declaration => [(role, declaration)]
  | .number _ => []
  | .apply operator left right =>
      if operator = .diff then
        written (Equation.childRole operator role) right
      else
        written (Equation.childRole operator role) left ++
          written (Equation.childRole operator role) right

theorem written_subset_mentions (expr : Expr) (role : Role) :
    written role expr ⊆ expr.mentions role := by
  induction expr generalizing role with
  | absent | reference | number => exact fun _ => id
  | apply operator left right leftHypothesis rightHypothesis =>
      rw [written, Expr.mentions]
      split
      case isTrue => exact List.subset_append_of_subset_right _ (rightHypothesis _)
      case isFalse =>
        exact List.append_subset.mpr
          ⟨List.subset_append_of_subset_left _ (leftHypothesis _),
            List.subset_append_of_subset_right _ (rightHypothesis _)⟩

/-- The names of what is written are all that the text of an expression depends on. -/
theorem code_congr_written (profile : Profile) {one other : Bool → Nat → String} (expr : Expr)
    (role : Role) (same : ∀ mention ∈ written role expr,
      one (mention.1 == .differentiated) mention.2 =
        other (mention.1 == .differentiated) mention.2) :
    profile.code one (role == .differentiated) expr =
      profile.code other (role == .differentiated) expr := by
  induction expr generalizing role with
  | absent => rfl
  | number => rfl
  | reference declaration => exact same (role, declaration) (by simp [written])
  | apply operator left right leftHypothesis rightHypothesis =>
      rw [written] at same
      simp only [Profile.code, isDiff_eq_childRole operator role]
      split at same
      case isTrue isDiff =>
        subst isDiff
        exact rightHypothesis _ same
      case isFalse =>
        rw [leftHypothesis _ fun mention inLeft => same mention (List.mem_append_left _ inLeft),
          rightHypothesis _ fun mention inRight => same mention (List.mem_append_right _ inRight)]

/-- The names of what an expression mentions are all that its text depends on. -/
theorem code_congr (profile : Profile) {one other : Bool → Nat → String} (expr : Expr) (role : Role)
    (same : ∀ mention ∈ expr.mentions role,
      one (mention.1 == .differentiated) mention.2 =
        other (mention.1 == .differentiated) mention.2) :
    profile.code one (role == .differentiated) expr =
      profile.code other (role == .differentiated) expr :=
  code_congr_written profile expr role fun mention isWritten =>
    same mention (written_subset_mentions expr role isWritten)

/-! ## Programs -/

namespace Program

variable (analysed : AnalysedModel)

/-- The numbers that states and constants start with. -/
def literals : List Statement :=
  (Profile.initialised analysed).filterMap fun target =>
    (target.initial.initialValue.bind InitialValue.literal).map (.literal target)

/-- The states and constants that start with the values of other variables. -/
def copies : List Statement :=
  (Profile.initialised analysed).filterMap fun target =>
    ((target.initial.initialValue.bind InitialValue.variableName).bind
      (analysed.bindingOf? target.initial.component)).map fun binding =>
        .copy target binding.1 binding.2

/-- The equations of some places. -/
def equations (places : Places) : List Statement :=
  places.filterMap fun place => analysed.equations[place]?.map .equation

/-- The procedures of an implementation with their statements, in the order in which they are
called. Only a model with a time computes rates. -/
def procedures : List (TextField × List Statement) :=
  let schedule := Schedule.ofModel analysed
  [(.implementationInitializeStatesAndConstantsMethod,
      literals analysed ++ copies analysed ++ equations analysed schedule.initialise),
    (.implementationComputeComputedConstantsMethod,
      equations analysed schedule.computedConstants)] ++
  (if analysed.type == .ode then
    [(.implementationComputeRatesMethod, equations analysed schedule.rates)]
  else []) ++
  [(.implementationComputeVariablesMethod, equations analysed schedule.otherVariables)]

/-- All statements of an implementation, in the order in which they run. -/
def statements : List Statement :=
  (procedures analysed).flatMap Prod.snd

/-- The text of statements, one behind the other. -/
def text (profile : Profile) (statements : List Statement) : String :=
  String.join (statements.map (Statement.text analysed profile))

theorem text_append (profile : Profile) (front back : List Statement) :
    text analysed profile (front ++ back) =
      text analysed profile front ++ text analysed profile back := by
  simp [text]

/-- Texts of what stands in a list, nothing standing for what is not there. -/
theorem join_map {α : Type} (profile : Profile) (image : α → Option Statement) (values : List α)
    (written : α → String) (same : ∀ value, written value =
      ((image value).map (Statement.text analysed profile)).getD "") :
    String.join (values.map written) = text analysed profile (values.filterMap image) := by
  induction values with
  | nil => rfl
  | cons head rest ih =>
      rw [List.map_cons, String.join_cons, ih, same head]
      cases found : image head with
      | none => simp [found]
      | some statement => simp [found, text]

theorem equationLines_eq (profile : Profile) (places : Places) :
    profile.equationLines analysed places = text analysed profile (equations analysed places) := by
  refine join_map analysed profile _ places _ fun place => ?_
  cases analysed.equations[place]? <;> rfl

theorem initialisation_eq (profile : Profile) (places : Places) :
    profile.initialisation analysed places =
      text analysed profile
        (literals analysed ++ copies analysed ++ equations analysed places) := by
  have literal : ∀ target, profile.literalLine target =
      (((target.initial.initialValue.bind InitialValue.literal).map (Statement.literal target)).map
        (Statement.text analysed profile)).getD "" := by
    intro target
    unfold Profile.literalLine
    cases target.initial.initialValue.bind InitialValue.literal <;> rfl
  have copy : ∀ target, profile.copyLine analysed target =
      ((((target.initial.initialValue.bind InitialValue.variableName).bind
        (analysed.bindingOf? target.initial.component)).map fun binding =>
          Statement.copy target binding.1 binding.2).map
        (Statement.text analysed profile)).getD "" := by
    intro target
    unfold Profile.copyLine
    simp only
    cases (target.initial.initialValue.bind InitialValue.variableName).bind
      (analysed.bindingOf? target.initial.component) <;> rfl
  rw [Profile.initialisation, text_append, text_append, equationLines_eq]
  congr 2
  · exact join_map analysed profile _ _ _ literal
  · exact join_map analysed profile _ _ _ copy

/-- The last sections of an implementation are its procedures with their statements. -/
theorem sections_eq (profile : Profile) :
    ∃ front, profile.implementationSections analysed = front ++
      (procedures analysed).map fun procedure =>
        profile.procedure procedure.1 (text analysed profile procedure.2) := by
  have regroup (front rates : List String) (one two three four last : String) :
      front ++ [one, two, three, four] ++ rates ++ [last] =
        (front ++ [one, two]) ++ ([three, four] ++ rates ++ [last]) := by simp
  simp only [procedures, List.map_append, List.map_cons, List.map_nil, apply_ite (List.map _),
    ← initialisation_eq, ← equationLines_eq, Profile.implementationSections]
  rw [regroup]
  exact ⟨_, rfl⟩

variable {analysed}

/-! ## Where statements stand -/

/-- The states and constants of a model all start with numbers. -/
def StartsWithNumbers (analysed : AnalysedModel) : Prop :=
  ∀ found ∈ Profile.initialised analysed,
    (found.initial.initialValue.bind InitialValue.literal).isSome

/-- The first statements of a program assign to all states and constants that start with
numbers. -/
theorem exists_literal (given : StartsWithNumbers analysed) {found : AnalysedVariable}
    (membership : found ∈ Profile.initialised analysed) :
    ∃ statement ∈ literals analysed,
      statement.target? analysed = Slot.of? false found.type found.place := by
  obtain ⟨written, equal⟩ := Option.isSome_iff_exists.mp (given found membership)
  refine ⟨.literal found written, ?_, rfl⟩
  exact List.mem_filterMap.mpr ⟨found, membership, by rw [equal]; rfl⟩

theorem reads_of_mem_literals {statement : Statement} (membership : statement ∈ literals analysed) :
    statement.reads analysed = [] := by
  obtain ⟨found, -, image⟩ := List.mem_filterMap.mp membership
  obtain ⟨written, -, rfl⟩ := Option.map_eq_some_iff.mp image
  rfl

/-- What starts with a number does not start with the value of another variable. -/
theorem variableName_of_literal {initial : Option InitialValue}
    (literal : (initial.bind InitialValue.literal).isSome) :
    initial.bind InitialValue.variableName = none := by
  cases initial with
  | none => rfl
  | some value =>
      cases value with
      | number => rfl
      | text written =>
          simp only [Option.bind_some, InitialValue.literal, InitialValue.variableName] at *
          split at literal
          case isTrue isNumber => simp [isNumber]
          case isFalse => cases literal

theorem copies_eq_nil (given : StartsWithNumbers analysed) :
    copies analysed = [] := by
  refine List.filterMap_eq_nil_iff.mpr fun found membership => ?_
  rw [variableName_of_literal (given found membership)]
  rfl

/-- In a place of a list that is put together from two lists, what stands before is in the first
one, or all of the first one stands before. -/
theorem split_append {α : Type} {front back before after : List α} {value : α}
    (equal : front ++ back = before ++ value :: after) :
    (∃ rest, front = before ++ value :: rest) ∨
      ∃ middle, before = front ++ middle ∧ back = middle ++ value :: after := by
  rcases List.append_eq_append_iff.mp equal with ⟨middle, rfl, split⟩ | ⟨middle, rfl, split⟩
  · exact Or.inr ⟨middle, rfl, split⟩
  · cases middle with
    | nil => exact Or.inr ⟨[], by simp, split.symm⟩
    | cons head rest =>
        obtain ⟨rfl, -⟩ := List.cons.inj split
        exact Or.inl ⟨rest, rfl⟩

/-- What stands in a list of images is the image of a value, and the images of the values before
stand before it. -/
theorem split_filterMap {α β : Type} {image : α → Option β} {values : List α} {before after : List β}
    {shown : β} (equal : values.filterMap image = before ++ shown :: after) :
    ∃ front value back, values = front ++ value :: back ∧ image value = some shown ∧
      before = front.filterMap image := by
  obtain ⟨front, rest, rfl, rfl, split⟩ := List.filterMap_eq_append_iff.mp equal
  obtain ⟨skipped, value, back, rfl, none, isImage, -⟩ := List.filterMap_eq_cons_iff.mp split
  refine ⟨front ++ skipped, value, back, by simp, isImage, ?_⟩
  rw [List.filterMap_append, List.filterMap_eq_nil_iff.mpr none, List.append_nil]

/-- A statement of the equations of some places is that of an equation, and the equations of the
places before stand before it. -/
theorem split_equations {places : Places} {before after : List Statement} {statement : Statement}
    (equal : equations analysed places = before ++ statement :: after) :
    ∃ front place back result, places = front ++ place :: back ∧
      analysed.equations[place]? = some result ∧ statement = .equation result ∧
      before = equations analysed front := by
  obtain ⟨front, place, back, places, image, earlier⟩ := split_filterMap equal
  obtain ⟨result, found, rfl⟩ := Option.map_eq_some_iff.mp image
  exact ⟨front, place, back, result, places, found, rfl, earlier⟩

theorem mem_equations {places : Places} {place : Nat} {result : AnalysedEquation}
    (found : analysed.equations[place]? = some result)
    (membership : place ∈ places) : .equation result ∈ equations analysed places :=
  List.mem_filterMap.mpr ⟨place, membership, by rw [found]; rfl⟩

/-- All statements of the program: what is initialised, then the equations of the schedule. -/
theorem statements_eq (given : StartsWithNumbers analysed) :
    statements analysed = literals analysed ++
      (equations analysed (Schedule.ofModel analysed).early ++
        equations analysed (Schedule.ofModel analysed).otherVariables) := by
  have untimed (other : ¬analysed.type == .ode) : (Schedule.ofModel analysed).rates = [] := by
    simp [Schedule.ofModel, other]
  unfold statements procedures
  simp only
  split
  case isTrue => simp [copies_eq_nil given, Schedule.early, equations]
  case isFalse other => simp [copies_eq_nil given, Schedule.early, equations, untimed other]

end Program

end ComponentModel.Code
