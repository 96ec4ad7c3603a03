import ComponentModel.Code.Generation
import ComponentModel.Proofs.Bindings
import ComponentModel.Proofs.Coverage

/-!
# Equations that are assignments to what they compute

Code writes every reported equation down as it stands, so it computes a variable only if the
equation is an assignment to that variable. Elimination does not look at the two sides of an
equation, and whether a reported equation has that form depends on which of its items the others
leave open.
-/

namespace ComponentModel

namespace Equation.Expr

/-! ## Assignments -/

/-- What an assignment assigns to, if that is the value or the rate of a declaration, and the
expression that is assigned. -/
def assignment? : Expr → Option ((Role × Nat) × Expr)
  | apply .assignment (reference declaration) right => some ((.plain, declaration), right)
  | apply .assignment (apply .diff _ (reference declaration)) right =>
      some ((.differentiated, declaration), right)
  | _ => none

/-- An assignment mentions what it assigns to and what the other side mentions. -/
theorem mem_mentions_of_assignment {expr right : Expr} {target mention : Role × Nat}
    (assigns : expr.assignment? = some (target, right))
    (mentioned : mention = target ∨ mention ∈ right.mentions .plain) :
    mention ∈ expr.mentions .plain := by
  unfold assignment? at assigns
  split at assigns
  case h_1 declaration right' =>
    obtain ⟨rfl, rfl⟩ := Prod.mk.inj (Option.some.inj assigns)
    simpa [mentions, childRole, argumentRole] using mentioned
  case h_2 bound declaration right' =>
    obtain ⟨rfl, rfl⟩ := Prod.mk.inj (Option.some.inj assigns)
    rcases mentioned with rfl | inRight
    · simp [mentions, childRole, argumentRole]
    · refine List.mem_append_right _ ?_
      simpa [childRole, argumentRole] using inRight
  case h_3 => cases assigns

/-- Only a value or a rate is assigned to. -/
theorem role_of_assignment {expr right : Expr} {target : Role × Nat}
    (assigns : expr.assignment? = some (target, right)) : target.1 ≠ .bound := by
  unfold assignment? at assigns
  split at assigns
  case h_1 =>
    obtain ⟨rfl, -⟩ := Prod.mk.inj (Option.some.inj assigns)
    simp
  case h_2 =>
    obtain ⟨rfl, -⟩ := Prod.mk.inj (Option.some.inj assigns)
    simp
  case h_3 => cases assigns

/-- Scaling makes no derivative from anything else. -/
theorem eq_diff_of_rescale {rule : FactorRule} {kept : Bool} {expr left right : Expr}
    (derivative : expr.rescale rule kept = apply .diff left right) :
    ∃ left' right', expr = apply .diff left' right' := by
  revert derivative
  fun_cases rescale rule kept expr with
  | case1 => simp
  | case2 => simp
  | case3 => simp
  | case4 other notKept => cases rule other <;> simp [scaled, times]
  | case5 => simp
  | case6 left' right' rate => exact fun _ => ⟨left', right', rfl⟩
  | case7 operator left' right' _ notDiff =>
      intro equal
      injection equal with same
      exact absurd same notDiff

/-- An assignment is an assignment to the same target after scaling, unless the target is a
declaration with a factor. -/
theorem assignment?_rescale {rule : FactorRule} {expr right : Expr} {target : Role × Nat}
    (assigns : expr.assignment? = some (target, right))
    (unscaled : target.1 = .plain → rule target.2 = none) :
    ∃ other, (expr.rescale rule false).assignment? = some (target, other) ∧
      other.mentions .plain = right.mentions .plain := by
  unfold assignment? at assigns
  split at assigns
  case h_1 declaration right' =>
    obtain ⟨rfl, rfl⟩ := Prod.mk.inj (Option.some.inj assigns)
    have kept : (reference declaration).rescale rule false = reference declaration :=
      rescale_eq_reference.mpr ⟨rfl, fun _ => unscaled rfl⟩
    refine ⟨right'.rescale rule false, ?_, mentions_rescale rule false right' .plain (by simp)⟩
    rw [rescale]
    · change (apply .assignment ((reference declaration).rescale rule false) _).assignment? = _
      rw [kept]
      rfl
    · simp
    · simp
  case h_2 bound declaration right' =>
    obtain ⟨rfl, rfl⟩ := Prod.mk.inj (Option.some.inj assigns)
    refine ⟨_, by rw [rescale, rescale]; rfl, ?_⟩
    rw [mentions_scaled]
    exact mentions_rescale rule false right' .plain (by simp)
  case h_3 => cases assigns

/-- What is an assignment after scaling is an assignment to the same target before. -/
theorem assignment?_of_rescale {rule : FactorRule} {expr right : Expr} {target : Role × Nat}
    (assigns : (expr.rescale rule false).assignment? = some (target, right)) :
    (target.1 = .plain → rule target.2 = none) ∧
      ∃ other, expr.assignment? = some (target, other) ∧
        right.mentions .plain = other.mentions .plain := by
  revert assigns
  fun_cases rescale rule false expr with
  | case1 => simp [assignment?]
  | case2 => simp [assignment?]
  | case3 => simp [assignment?]
  | case4 other => cases rule other <;> simp [scaled, times, assignment?]
  | case5 bound inner other rate =>
      intro assigns
      cases inside : inner.rescale rule true with
      | reference declaration =>
          obtain ⟨rfl, -⟩ := rescale_eq_reference.mp inside
          simp only [rate, inside, assignment?, Option.some.injEq, Prod.mk.injEq] at assigns
          obtain ⟨rfl, rfl⟩ := assigns
          refine ⟨by simp, other, rfl, ?_⟩
          rw [mentions_scaled]
          exact mentions_rescale rule false other .plain (by simp)
      | absent => simp [rate, inside, assignment?] at assigns
      | number => simp [rate, inside, assignment?] at assigns
      | apply => simp [rate, inside, assignment?] at assigns
  | case6 left' right' rate =>
      cases rateFactor rule rate <;> simp [Expr.unscaled, times, rate, assignment?]
  | case7 operator left' right' notRate notDiff =>
      intro assigns
      unfold assignment? at assigns
      split at assigns
      case h_1 declaration other equal =>
        injection equal with isAssignment leftEqual rightEqual
        subst isAssignment
        obtain ⟨rfl, unscaled⟩ := rescale_eq_reference.mp leftEqual
        obtain ⟨rfl, rfl⟩ := Prod.mk.inj (Option.some.inj assigns)
        refine ⟨fun _ => unscaled rfl, right', rfl, ?_⟩
        rw [← rightEqual]
        exact mentions_rescale rule _ right' .plain (by simp)
      case h_2 bound declaration other equal =>
        injection equal with isAssignment leftEqual rightEqual
        subst isAssignment
        obtain ⟨left, right, rfl⟩ := eq_diff_of_rescale leftEqual
        exact (notRate left right rfl rfl).elim
      case h_3 => cases assigns

end Equation.Expr

namespace Analysis

open Equation (Role)

/-! ## Explicit equations -/

/-- The role in which an equation asks for what it computes. -/
def AnalysedEquation.role (equation : AnalysedEquation) : Role :=
  if equation.kind = .rate then .differentiated else .plain

theorem AnalysedEquation.role_ne_bound (equation : AnalysedEquation) : equation.role ≠ .bound := by
  unfold role
  split <;> simp

namespace AnalysedModel

/-- A declaration stands for a variable. -/
def Binds (analysed : AnalysedModel) (found : AnalysedVariable) (declaration : Nat) : Prop :=
  analysed.binding? declaration = some (found.type, found.place)

/-- An equation assigns to the variable that it computes, or to its rate, and what it assigns does
not mention the same value or rate. -/
structure IsExplicit (analysed : AnalysedModel) (equation : AnalysedEquation)
    (declaration : Nat) (right : Equation.Expr) : Prop where
  assigns : equation.expr.assignment? = some ((equation.role, declaration), right)
  target : analysed.Binds equation.computes declaration
  apart : ∀ other, (equation.role, other) ∈ right.mentions .plain →
    ¬analysed.Binds equation.computes other

end AnalysedModel

/-- What a mention in a role asks for. -/
def Item.ofRole (role : Role) (record : Nat) : Item :=
  if role = .differentiated then .rate record else .value record

@[simp] theorem Item.number_ofRole (role : Role) (record : Nat) :
    (Item.ofRole role record).number = record := by
  unfold ofRole
  split <;> rfl

/-- Every item is asked for in a role. -/
theorem Item.exists_ofRole (item : Item) :
    ∃ role : Role, role ≠ .bound ∧ ofRole role item.number = item := by
  cases item with
  | value record => exact ⟨.plain, by decide, rfl⟩
  | rate record => exact ⟨.differentiated, by decide, rfl⟩

/-- What bounds no derivative is told apart by what it asks for. -/
theorem Item.ofRole_injective {one other : Role} {record second : Nat} (asking : one ≠ .bound)
    (askingOther : other ≠ .bound) (same : ofRole one record = ofRole other second) :
    one = other := by
  cases one <;> cases other <;> first | rfl | contradiction

/-- A mention asks for an item in one role only, unless it bounds a derivative. -/
theorem Item.role_eq {role : Role} {equation : AnalysedEquation} {record : Nat}
    (asking : role ≠ .bound) (same : Item.ofRole role record = Item.ofRole equation.role record) :
    role = equation.role :=
  Item.ofRole_injective asking equation.role_ne_bound same

namespace Stage

variable {model : Model} {place number order : Nat} {source equation : OrderedEquation}
  {item : Item} {result : AnalysedEquation}

/-- What an equation that computes a value makes of its class. -/
inductive ComputesValue (model : Model) (equation : OrderedEquation) (record : Nat) : Prop
  | trueConstant (kind : equation.kind = .trueConstant) (flag : equation.trueConstant)
      (left : ((final model).registry.get record).kind = .computedTrueConstant)
  | variableBased (kind : equation.kind = .variableBasedConstant) (flag : equation.variableBased)
      (left : ((final model).registry.get record).kind = .computedVariableBasedConstant)
  | algebraic (kind : equation.kind = .algebraic)
      (left : ((final model).registry.get record).kind = .algebraic)

theorem Ordered.computesValue (valid : (analyse model).type.isValid) {record : Nat}
    (ordered : Ordered model number order source equation (.value record)) :
    ComputesValue model equation record := by
  have agrees := Elimination.kindAgrees_of_ordered (ready model) (moves model)
    (start_getElem?.mpr ordered.foundSource) ordered.found
    (Option.isSome_of_eq_some ordered.order) ordered.single
  rcases agrees.kind with twice | ⟨kind, isTrue, isBased⟩
  · exact (kind_ne_overconstrained valid _ twice).elim
  · rw [Item.number_value] at kind isTrue isBased
    have unknown : ((start model).registry.get record).kind = .unknown := ordered.open_
    have named := ordered.named
    cases Elimination.standing_of_moves (ready model) (moves model) record with
    | untouched _ _ uncomputed => rw [Item.number_value, uncomputed] at named; cases named
    | twice _ _ _ uncomputed => rw [Item.number_value, uncomputed] at named; cases named
    | value _ left =>
        rcases left with left | left | left | left
        · exact .trueConstant (by rw [kind, left]; rfl) (isTrue left) left
        · exact .variableBased (by rw [kind, left]; rfl) (isBased left) left
        · exact .algebraic (by rw [kind, left]; rfl) left
        · exact (kind_ne_overconstrained valid _ left).elim
    | rate isState => rw [unknown] at isState; cases isState

/-- An equation that computes a rate keeps the state a state. -/
theorem Ordered.computesRate (valid : (analyse model).type.isValid) {record : Nat}
    (ordered : Ordered model number order source equation (.rate record)) :
    equation.kind = .rate ∧ ((final model).registry.get record).kind = .state := by
  have agrees := Elimination.kindAgrees_of_ordered (ready model) (moves model)
    (start_getElem?.mpr ordered.foundSource) ordered.found
    (Option.isSome_of_eq_some ordered.order) ordered.single
  rcases agrees.kind with twice | ⟨kind, -⟩
  · exact (kind_ne_overconstrained valid _ twice).elim
  · rw [Item.number_rate] at kind
    have isState : ((start model).registry.get record).kind = .state := ordered.open_
    have left : ((final model).registry.get record).kind = .state := by
      cases Elimination.standing_of_moves (ready model) (moves model) record with
      | untouched same => rw [same, isState]
      | twice given => rw [isState] at given; cases given
      | value unknown => rw [isState] at unknown; cases unknown
      | rate _ left => exact left.resolve_right (kind_ne_overconstrained valid _)
    exact ⟨by rw [kind, left]; rfl, left⟩

/-- An equation that computes a value asks for it in a plain role. -/
theorem ReportedAt.role_value (valid : (analyse model).type.isValid) {record : Nat}
    (reportedAt : ReportedAt model place number order source equation (.value record) result) :
    result.role = .plain := by
  have notRate : result.kind ≠ .rate := by
    rw [reportedAt.kind]
    cases reportedAt.ordered.computesValue valid <;> simp_all
  simp [AnalysedEquation.role, notRate]

theorem ReportedAt.role_rate (valid : (analyse model).type.isValid) {record : Nat}
    (reportedAt : ReportedAt model place number order source equation (.rate record) result) :
    result.role = .differentiated := by
  have isRate : result.kind = .rate :=
    reportedAt.kind.trans (reportedAt.ordered.computesRate valid).1
  simp [AnalysedEquation.role, isRate]

/-- An equation asks for what it computes in the role of its kind. -/
theorem ReportedAt.ofRole_role (valid : (analyse model).type.isValid)
    (reportedAt : ReportedAt model place number order source equation item result) :
    Item.ofRole result.role item.number = item := by
  cases item with
  | value record => rw [reportedAt.role_value valid]; rfl
  | rate record => rw [reportedAt.role_rate valid]; rfl

/-- What an equation computes has a place in an array. -/
theorem ReportedAt.inArray (valid : (analyse model).type.isValid)
    (reportedAt : ReportedAt model place number order source equation item result) :
    result.computes.type ≠ .integrationVariable := by
  have ordered := reportedAt.ordered
  have role := (isEntry reportedAt.entry).type
  intro isIntegration
  rw [isIntegration] at role
  cases item with
  | value record =>
      rw [Item.number_value] at role
      cases ordered.computesValue valid with
      | trueConstant _ _ left => rw [left] at role; cases role
      | variableBased _ _ left => rw [left] at role; cases role
      | algebraic _ left => rw [left] at role; cases role
  | rate record =>
      rw [Item.number_rate, (ordered.computesRate valid).2] at role
      cases role

theorem ReportedAt.membership
    (reportedAt : ReportedAt model place number order source equation item result) :
    source ∈ built model :=
  List.mem_of_getElem? reportedAt.ordered.foundSource

/-- What is bound to the class that an equation computes is found under its record. -/
theorem ReportedAt.binds_iff_record (valid : (analyse model).type.isValid)
    (reportedAt : ReportedAt model place number order source equation item result)
    {declaration record : Nat} {found : AnalysedVariable}
    (bound : BoundTo model declaration record found) :
    (analyse model).Binds result.computes declaration ↔ record = item.number :=
  bound.binding_eq_iff reportedAt.entry (reportedAt.inArray valid)

/-- A mention stands for what an equation computes exactly if it is found under its record. -/
theorem ReportedAt.binds_iff (valid : (analyse model).type.isValid)
    (reportedAt : ReportedAt model place number order source equation item result) {role : Role}
    {declaration : Nat} (mentioned : (role, declaration) ∈ source.expr.mentions .plain) :
    (analyse model).Binds result.computes declaration ↔
      (final model).registry.find? (index model) declaration = some item.number := by
  obtain ⟨record, found, bound⟩ := exists_boundTo valid reportedAt.membership mentioned
  rw [reportedAt.binds_iff_record valid bound, bound.recorded, Option.some.injEq]

/-- An item is one of an equation exactly if a declaration of its class is mentioned in its
role. -/
theorem ofRole_mem_items (membership : source ∈ built model) {role : Role} {record : Nat}
    (asking : role ≠ .bound) : Item.ofRole role record ∈ source.items ↔
      ∃ declaration, (role, declaration) ∈ source.expr.mentions .plain ∧
        (final model).registry.find? (index model) declaration = some record := by
  cases role with
  | plain => exact value_mem_items membership
  | differentiated => exact rate_mem_items membership
  | bound => exact absurd rfl asking

/-- An equation is an assignment to an item that nothing else settles. The assigned declaration
has no factor if it stands for its value, and the other side does not mention the item. -/
structure AssignsOpen (model : Model) (number : Nat) (expr : Equation.Expr) (role : Role)
    (declaration record : Nat) (right : Equation.Expr) : Prop where
  assigns : expr.assignment? = some ((role, declaration), right)
  recorded : (final model).registry.find? (index model) declaration = some record
  needed : ¬SettledElsewhere model number (Item.ofRole role record)
  unscaled : role = .plain → rule model declaration = none
  apart : ∀ other, (role, other) ∈ right.mentions .plain →
    (final model).registry.find? (index model) other ≠ some record

/-- An explicit equation was an assignment to an open item before it was scaled. -/
theorem ReportedAt.assignsOpen (valid : (analyse model).type.isValid)
    (reportedAt : ReportedAt model place number order source equation item result)
    {declaration : Nat} {right : Equation.Expr}
    (explicit : (analyse model).IsExplicit result declaration right) :
    ∃ inner, AssignsOpen model number source.expr result.role declaration item.number inner := by
  have scaled := explicit.assigns
  rw [reportedAt.expr] at scaled
  obtain ⟨unscaled, inner, assigns, sameMentions⟩ := Equation.Expr.assignment?_of_rescale scaled
  have mentioned := Equation.Expr.mem_mentions_of_assignment assigns (Or.inl rfl)
  refine ⟨inner, assigns, (reportedAt.binds_iff valid mentioned).mp explicit.target, ?_, unscaled,
    ?_⟩
  · rw [reportedAt.ofRole_role valid, reportedAt.ordered.settledElsewhere_iff
      reportedAt.ordered.asked]
    exact not_not_intro rfl
  · intro other inInner found
    have inSource := Equation.Expr.mem_mentions_of_assignment assigns (Or.inr inInner)
    exact explicit.apart other (sameMentions ▸ inInner)
      ((reportedAt.binds_iff valid inSource).mpr found)

/-- An assignment to an open item is explicit when it is reported. -/
theorem ReportedAt.isExplicit (valid : (analyse model).type.isValid)
    (reportedAt : ReportedAt model place number order source equation item result) {role : Role}
    {declaration record : Nat} {right : Equation.Expr}
    (assignsOpen : AssignsOpen model number source.expr role declaration record right) :
    ∃ scaled, (analyse model).IsExplicit result declaration scaled := by
  have assigns := assignsOpen.assigns
  have asking := Equation.Expr.role_of_assignment assigns
  have mentioned := Equation.Expr.mem_mentions_of_assignment assigns (Or.inl rfl)
  have asked := (ofRole_mem_items reportedAt.membership asking).mpr
    ⟨declaration, mentioned, assignsOpen.recorded⟩
  have same : Item.ofRole role record = item := by
    by_contra different
    exact assignsOpen.needed ((reportedAt.ordered.settledElsewhere_iff asked).mpr different)
  have sameRecord : record = item.number := by rw [← same, Item.number_ofRole]
  have asks := reportedAt.ofRole_role valid
  rw [← sameRecord] at asks
  have sameRole : role = result.role := Item.role_eq asking (same.trans asks.symm)
  subst sameRecord sameRole
  obtain ⟨scaled, scaledAssigns, sameMentions⟩ :=
    Equation.Expr.assignment?_rescale assigns assignsOpen.unscaled
  refine ⟨scaled, reportedAt.expr ▸ scaledAssigns,
    (reportedAt.binds_iff valid mentioned).mpr assignsOpen.recorded, ?_⟩
  intro other inScaled binds
  rw [sameMentions] at inScaled
  have inSource := Equation.Expr.mem_mentions_of_assignment assigns (Or.inr inScaled)
  exact assignsOpen.apart other inScaled ((reportedAt.binds_iff valid inSource).mp binds)

end Stage

end Analysis

/-! ## Statements -/

namespace Code.Profile

open Analysis (AnalysedModel AnalysedEquation)
open Equation (Expr Role)

variable (profile : Profile)

/-- An assignment is written as its target, the word for an assignment and the other side. -/
theorem code_of_assignment (reference : Bool → Nat → String) {expr right : Expr}
    {target : Role × Nat} (assigns : expr.assignment? = some (target, right)) :
    profile.code reference false expr =
      reference (target.1 == .differentiated) target.2 ++ profile.text .assignment ++
        profile.code reference false right := by
  unfold Expr.assignment? at assigns
  split at assigns
  case h_1 =>
    obtain ⟨rfl, rfl⟩ := Prod.mk.inj (Option.some.inj assigns)
    rfl
  case h_2 =>
    obtain ⟨rfl, rfl⟩ := Prod.mk.inj (Option.some.inj assigns)
    rfl
  case h_3 => cases assigns

/-- The statement of an explicit equation assigns to the place of what the equation computes. -/
theorem code_of_isExplicit {analysed : AnalysedModel} {equation : AnalysedEquation}
    {declaration : Nat} {right : Expr}
    (explicit : analysed.IsExplicit equation declaration right) :
    profile.code (profile.referenceText analysed) false equation.expr =
      profile.variableText (equation.role == .differentiated) equation.computes.type
        equation.computes.place ++ profile.text .assignment ++
        profile.code (profile.referenceText analysed) false right := by
  rw [profile.code_of_assignment _ explicit.assigns, referenceText, explicit.target]

end Code.Profile

namespace Analysis.Stage

open Equation (Role)

theorem writtenFactor_one : writtenFactor 1.0 = none := by
  decide

/-- A declaration in the units of the reported declaration of its class has no factor. -/
theorem rule_eq_none {model : Model} {declaration record : Nat}
    (recorded : (final model).registry.find? (index model) declaration = some record)
    (same : ((index model).declaration declaration).units =
      ((index model).declaration ((final model).registry.get record).declaration).units) :
    rule model declaration = none := by
  unfold rule factorRule unitsFactor
  rw [recorded]
  cases (Units.Registry.ofDefinitions model.units).toOption with
  | none => exact writtenFactor_one
  | some units => simpa [same] using writtenFactor_one

/-- Every equation that is reported mentions what it computes. Its statement assigns to what it
computes, from other values only, exactly if the equation was an assignment to an item that
nothing else settles, without a factor for its target and without a mention on the other side. -/
theorem isExplicit_iff_assignsOpen (model : Model) (valid : (analyse model).type.isValid)
    (place : Nat) (result : AnalysedEquation)
    (found : (analyse model).equations[place]? = some result) :
    ∃ number source, (reported model)[place]? = some number ∧
      (built model)[number]? = some source ∧
      result.expr = source.expr.rescale (rule model) false ∧
      (∃ declaration, (result.role, declaration) ∈ result.expr.mentions .plain ∧
        (analyse model).Binds result.computes declaration) ∧
      ((∃ declaration right, (analyse model).IsExplicit result declaration right) ↔
        ∃ role declaration record right,
          AssignsOpen model number source.expr role declaration record right) ∧
      ∀ declaration right, (analyse model).IsExplicit result declaration right →
        ∀ profile : Code.Profile,
          profile.code (profile.referenceText (analyse model)) false result.expr =
            profile.variableText (result.role == .differentiated) result.computes.type
              result.computes.place ++ profile.text .assignment ++
              profile.code (profile.referenceText (analyse model)) false right := by
  obtain ⟨number, order, source, equation, item, reportedAt⟩ := exists_reportedAt valid found
  refine ⟨number, source, reportedAt.listed, reportedAt.ordered.foundSource, reportedAt.expr, ?_,
    ⟨?_, ?_⟩, fun declaration right explicit profile => profile.code_of_isExplicit explicit⟩
  · have asked := reportedAt.ordered.asked
    rw [← reportedAt.ofRole_role valid, ofRole_mem_items reportedAt.membership
      result.role_ne_bound] at asked
    obtain ⟨declaration, mentioned, recorded⟩ := asked
    refine ⟨declaration, ?_, (reportedAt.binds_iff valid mentioned).mpr recorded⟩
    rwa [reportedAt.expr, Equation.Expr.mentions_rescale _ _ _ _ (by simp)]
  · rintro ⟨declaration, right, explicit⟩
    obtain ⟨inner, assignsOpen⟩ := reportedAt.assignsOpen valid explicit
    exact ⟨_, _, _, inner, assignsOpen⟩
  · rintro ⟨role, declaration, record, right, assignsOpen⟩
    obtain ⟨scaled, explicit⟩ := reportedAt.isExplicit valid assignsOpen
    exact ⟨declaration, scaled, explicit⟩

/-- Two variables, and an equation for each: `x = y` is left to compute `y`, since `x = 3`
computes `x`. -/
def leftover : Model :=
  single "leftover"
    [⟨"x", "dimensionless", none, none⟩, ⟨"y", "dimensionless", none, none⟩]
    ("<math><apply><eq/><ci>x</ci><ci>y</ci></apply>" ++
      "<apply><eq/><ci>x</ci><cn>3</cn></apply></math>")

theorem gathered_leftover : Gathered.ofIndex (index leftover) =
    ⟨[⟨0, 0, 0, .unknown, none, none⟩, ⟨1, 1, 1, .unknown, none, none⟩],
      [.new (.apply .assignment (.reference 0) (.reference 1)) 0 [0, 1] [],
       .new (.apply .assignment (.reference 0) (.number "3")) 0 [0] []], []⟩ := by
  cbv

theorem derivatives_leftover :
    derivatives leftover = ⟨Gathered.ofIndex (index leftover), none⟩ := by
  rw [derivatives, gathered_leftover]
  cbv

theorem registry_leftover : (final leftover).registry =
    [⟨0, 0, 0, .computedTrueConstant, some 0, some 1⟩,
     ⟨1, 1, 1, .computedVariableBasedConstant, some 1, some 0⟩] := by
  rw [final, start, derivatives_leftover, gathered_leftover]
  cbv

theorem reported_leftover : reported leftover = [1, 0] := by
  rw [reported, final, start, derivatives_leftover, gathered_leftover]
  cbv

theorem type_leftover : (analyse leftover).type = .algebraic := by
  have gathered : (Gathered.ofIndex (index leftover)).issues = [] := by rw [gathered_leftover]
  rw [type_analyse gathered (by rw [derivatives_leftover, gathered]), registry_leftover,
    derivatives_leftover]
  rfl

theorem valid_leftover : (analyse leftover).type.isValid := by
  rw [type_leftover]
  rfl

/-- The equation of `x` is explicit. -/
theorem leftover_isExplicit :
    (analyse leftover).type.isValid ∧ ∃ result, (analyse leftover).equations[0]? = some result ∧
      ∃ declaration right, (analyse leftover).IsExplicit result declaration right := by
  have listed : (reported leftover)[0]? = some 1 := by rw [reported_leftover]; rfl
  obtain ⟨_, _, _, _, result, reportedAt⟩ := exists_reportedAt_of_mem valid_leftover listed
  obtain ⟨number, source, listed', foundSource, -, -, iff, -⟩ :=
    isExplicit_iff_assignsOpen leftover valid_leftover 0 result reportedAt.found
  refine ⟨valid_leftover, result, reportedAt.found, iff.mpr ⟨.plain, 0, 0, .number "3", ?_⟩⟩
  obtain rfl := Option.some.inj (listed.symm.trans listed')
  rw [built, gathered_leftover] at foundSource
  obtain rfl := Option.some.inj foundSource
  have recorded : (final leftover).registry.find? (index leftover) 0 = some 0 := by
    rw [registry_leftover]
    cbv
  have open_ : ((start leftover).registry.get 0).kind = .unknown := by
    rw [start, derivatives_leftover, gathered_leftover]
    cbv
  have named : ((final leftover).registry.get 0).equation = some 1 := by
    rw [registry_leftover]
    rfl
  refine ⟨rfl, recorded, not_settledElsewhere open_ named, fun _ => ?_,
    by simp [Equation.Expr.mentions]⟩
  · refine rule_eq_none recorded ?_
    rw [registry_leftover]
    rfl

/-- The equation that computes `y` is an assignment to `x`. -/
theorem leftover_assigns_other_variable :
    (analyse leftover).type = .algebraic ∧
      ∃ result, (analyse leftover).equations[1]? = some result ∧
        ∀ declaration right, ¬(analyse leftover).IsExplicit result declaration right := by
  have listed : (reported leftover)[1]? = some 0 := by rw [reported_leftover]; rfl
  obtain ⟨_, source, _, item, result, reportedAt⟩ := exists_reportedAt_of_mem valid_leftover listed
  refine ⟨type_leftover, result, reportedAt.found, fun declaration right explicit => ?_⟩
  obtain ⟨inner, assignsOpen⟩ := reportedAt.assignsOpen valid_leftover explicit
  have foundSource := reportedAt.ordered.foundSource
  rw [built, gathered_leftover] at foundSource
  obtain rfl := Option.some.inj foundSource
  -- The target is `x`, which the other equation settles.
  obtain ⟨⟨-, rfl⟩, -⟩ : (_ ∧ declaration = 0) ∧ _ := by
    simpa [OrderedEquation.new, Equation.Expr.assignment?, eq_comm] using assignsOpen.assigns
  have computes : 0 = item.number := by
    have recorded := assignsOpen.recorded
    rw [registry_leftover] at recorded
    exact Option.some.inj recorded
  refine assignsOpen.needed (Or.inr ⟨1, ?_, by decide⟩)
  rw [Item.number_ofRole, ← computes, registry_leftover]
  rfl

end Analysis.Stage

end ComponentModel
