import ComponentModel.Proofs.FirstOrder
import ComponentModel.Proofs.Procedures
import ComponentModel.Proofs.References
import Mathlib

/-!
# Kinds of equations

The kind of an equation for a value is told by what else it refers to: nothing, constants only, or
something that varies. It does not matter what was known about the references when the equation was
looked at. The procedures that compute constants therefore name elements of the array of variables
and nothing else, unless a derivative has an unexpected form.
-/

namespace ComponentModel

namespace Equation.Expr

/-- All derivatives in an expression have a bound variable as first child and a variable as second
one. -/
def DerivesVariables (expr : Expr) : Prop :=
  ∀ first second, Differentiates first second expr →
    (∃ one other, first = apply .bvar one other) ∧ ∃ declaration, second = reference declaration

/-- Scaling keeps the form of derivatives. -/
theorem DerivesVariables.rescale {expr : Expr} {rule : FactorRule} {kept : Bool}
    (expected : expr.DerivesVariables) : (expr.rescale rule kept).DerivesVariables := by
  intro first second occurs
  obtain ⟨one, other, inside, rfl, rfl⟩ := differentiatesScaled_of_rescale occurs
  obtain ⟨⟨bound, degree, rfl⟩, declaration, rfl⟩ := expected one other inside
  exact ⟨⟨_, _, rfl⟩, declaration, rfl⟩

/-- Where no derivative occurs, all mentions are plain. -/
theorem plain_of_undifferentiated {expr : Expr}
    (none : ∀ first second, ¬Differentiates first second expr) :
    ∀ mention ∈ expr.mentions .plain, mention.1 = .plain := by
  induction expr with
  | absent => simp [mentions]
  | number => simp [mentions]
  | reference => simp [mentions]
  | apply operator left right leftHypothesis rightHypothesis =>
      have notDiff : operator ≠ .diff := by
        rintro rfl
        exact none left right .here
      have plain : childRole operator .plain = .plain := by
        simp [childRole, boundRole, argumentRole, notDiff]
      rw [mentions, plain, List.forall_mem_append]
      exact ⟨leftHypothesis fun first second inside => none first second (.left inside),
        rightHypothesis fun first second inside => none first second (.right inside)⟩

end Equation.Expr

namespace Analysis

open Code (Profile Statement)
open Equation (Expr Role)

namespace AnalysedModel

/-- A reference asks for the value of a constant, given or computed. -/
def IsFixed (analysed : AnalysedModel) (mention : Role × Nat) : Prop :=
  mention.1 = .plain ∧ ∃ type place, analysed.binding? mention.2 = some (type, place) ∧
    (type = .constant ∨ type = .computedConstant)

/-- A reference asks for a rate, or for the value of the variable of integration, of a state or of
an algebraic variable. -/
def Varies (analysed : AnalysedModel) (mention : Role × Nat) : Prop :=
  mention.1 = .differentiated ∨ ∃ type place, analysed.binding? mention.2 = some (type, place) ∧
    (type = .integrationVariable ∨ type = .state ∨ type = .algebraic)

/-- The kind of an equation for a value is what its references to other classes imply. -/
structure KindFollows (analysed : AnalysedModel) (equation : AnalysedEquation) : Prop where
  trueConstant : equation.kind = .trueConstant ↔
    ∀ mention ∈ equation.references, analysed.Binds equation.computes mention.2
  variableBased : equation.kind = .variableBasedConstant ↔
    (∃ mention ∈ equation.references, ¬analysed.Binds equation.computes mention.2) ∧
      ∀ mention ∈ equation.references, ¬analysed.Binds equation.computes mention.2 →
        analysed.IsFixed mention
  algebraic : equation.kind = .algebraic ↔ ∃ mention ∈ equation.references, analysed.Varies mention
  /-- It is not its own variable alone that makes an equation an algebraic one. -/
  elsewhere : equation.kind = .algebraic → ∃ mention ∈ equation.references,
    ¬analysed.Binds equation.computes mention.2 ∧ analysed.Varies mention

end AnalysedModel

namespace Stage

variable {model : Model} {place number order : Nat} {source equation : OrderedEquation}
  {item : Item} {result : AnalysedEquation} {role : Role} {declaration record own : Nat}
  {found : AnalysedVariable}

/-! ## References to other classes -/

/-- A class whose rate an equation refers to was known from the start, and is no constant. -/
theorem ReportedAt.kind_of_rate (valid : (analyse model).type.isValid)
    (reportedAt : ReportedAt model place number order source equation item result)
    (asked : .rate record ∈ source.items) :
    ((start model).registry.get record).kind ≠ .unknown ∧
      OrderedEquation.isConstantKind ((final model).registry.get record).kind = false := by
  have differentiable := (ready model).differentiable source
    (List.mem_of_getElem? reportedAt.ordered.computing.foundSource) record
    (OrderedEquation.rate_mem_items.mp asked)
  refine ⟨differentiable.1, ?_⟩
  rw [kind_final valid differentiable.1]
  have initial := (ready model).initial record
  cases kind : ((start model).registry.get record).kind <;>
    simp_all [Kind.isInitial, OrderedEquation.isConstantKind]

/-- A reference of an equation for a value asks for that value exactly if it is bound to what the
equation computes. -/
theorem ReportedAt.ofRole_eq_iff (valid : (analyse model).type.isValid)
    (reportedAt : ReportedAt model place number order source equation (.value own) result)
    (bound : BoundTo model declaration record found)
    (asked : Item.ofRole role record ∈ source.items) :
    Item.ofRole role record = .value own ↔ (analyse model).Binds result.computes declaration := by
  rw [reportedAt.binds_iff_record valid bound, Item.number_value]
  constructor
  · intro same
    simpa using congrArg Item.number same
  · rintro rfl
    cases role with
    | differentiated =>
        exact absurd reportedAt.ordered.open_ (reportedAt.kind_of_rate valid asked).1
    | _ => rfl

/-- A flag of an equation for a value is up exactly if all references to other classes are to
classes of a good kind. -/
theorem ReportedAt.flag_iff (valid : (analyse model).type.isValid)
    (reportedAt : ReportedAt model place number order source equation (.value own) result)
    {flag : OrderedEquation → Bool} {good : Kind → Bool} (flags : Elimination.KindFlag flag good)
    (image : Role × Nat → Prop)
    (same : ∀ role declaration record found, (role, declaration) ∈ result.references →
      BoundTo model declaration record found → Item.ofRole role record ∈ source.items →
        (good ((final model).registry.get record).kind = true ↔ image (role, declaration))) :
    flag equation = true ↔ ∀ mention ∈ result.references,
      ¬(analyse model).Binds result.computes mention.2 → image mention := by
  rw [flags.iff_of_computing (ready model) (moves model) (kind_ne_overconstrained valid)
    reportedAt.ordered.computing reportedAt.ordered.open_]
  constructor
  · rintro each ⟨role, declaration⟩ referred apart
    obtain ⟨record, found, bound, asked⟩ := reportedAt.exists_item valid referred
    have different : Item.ofRole role record ≠ .value own := fun isOwn =>
      apart ((reportedAt.ofRole_eq_iff valid bound asked).mp isOwn)
    have isGood := each _ asked different
    rw [Item.number_ofRole] at isGood
    exact (same role declaration record found referred bound asked).mp isGood
  · intro each other asked different
    obtain ⟨role, asking, asks⟩ := other.exists_ofRole
    rw [← asks] at asked different
    obtain ⟨declaration, found, referred, bound⟩ :=
      reportedAt.exists_reference valid asking asked
    refine (same role declaration _ found referred bound asked).mpr (each _ referred ?_)
    exact fun binds => different ((reportedAt.ofRole_eq_iff valid bound asked).mpr binds)

/-- What is left as a constant is reported as one. -/
theorem isConstantKind_iff {kind : Kind} {type : VariableType}
    (reported : VariableType.ofKind? kind = some type) :
    OrderedEquation.isConstantKind kind = true ↔ type = .constant ∨ type = .computedConstant := by
  cases kind <;> cases reported <;> simp [OrderedEquation.isConstantKind]

/-- A reference is to a constant exactly if the class has been left as one. -/
theorem ReportedAt.isFixed_iff (valid : (analyse model).type.isValid)
    (reportedAt : ReportedAt model place number order source equation item result)
    (referred : (role, declaration) ∈ result.references)
    (bound : BoundTo model declaration record found)
    (asked : Item.ofRole role record ∈ source.items) :
    OrderedEquation.isConstantKind ((final model).registry.get record).kind = true ↔
      (analyse model).IsFixed (role, declaration) := by
  have type := (isEntry bound.entry).type
  have asking := (reportedAt.mem_references.mp referred).2
  cases role with
  | bound => exact absurd rfl asking
  | differentiated =>
      rw [(reportedAt.kind_of_rate valid asked).2]
      simp [AnalysedModel.IsFixed]
  | plain =>
      rw [isConstantKind_iff type]
      simp [AnalysedModel.IsFixed, bound.binding]

/-- What a reference asks for is constant, or it varies. -/
theorem ReportedAt.varies_iff (valid : (analyse model).type.isValid)
    (reportedAt : ReportedAt model place number order source equation item result)
    (referred : (role, declaration) ∈ result.references) :
    (analyse model).Varies (role, declaration) ↔ ¬(analyse model).IsFixed (role, declaration) := by
  obtain ⟨record, found, bound, -⟩ := reportedAt.exists_item valid referred
  have asking := (reportedAt.mem_references.mp referred).2
  simp only [AnalysedModel.Varies, AnalysedModel.IsFixed, bound.binding, Option.some.injEq,
    Prod.mk.injEq]
  cases role with
  | bound => exact absurd rfl asking
  | differentiated => simp
  | plain => cases type : found.type <;> simp

/-! ## Kinds -/

/-- The flags of an equation for a value tell its kind. -/
theorem ReportedAt.kind_eq (valid : (analyse model).type.isValid)
    (reportedAt : ReportedAt model place number order source equation (.value own) result) :
    result.kind = if equation.trueConstant then .trueConstant
      else if equation.variableBased then .variableBasedConstant else .algebraic := by
  obtain ⟨left, kind⟩ := reportedAt.ordered.computing.kinds (ready model) (moves model)
    (kind_ne_overconstrained valid)
  have unknown : ((start model).registry.get own).kind = .unknown := reportedAt.ordered.open_
  rw [reportedAt.kind, kind, left, Item.number_value, unknown, OrderedEquation.resolved,
    Kind.resolvedBy]
  split
  · rfl
  · split <;> rfl

/-- An equation for a value has met nothing that was settled exactly if it refers to no other
class. -/
theorem ReportedAt.trueConstant_iff (valid : (analyse model).type.isValid)
    (reportedAt : ReportedAt model place number order source equation (.value own) result) :
    equation.trueConstant = true ↔
      ∀ mention ∈ result.references, (analyse model).Binds result.computes mention.2 := by
  rw [reportedAt.flag_iff valid Elimination.kindFlag_trueConstant fun _ => False]
  · simp only [imp_false, not_not]
  · intro role declaration record found referred bound asked
    have type := (isEntry bound.entry).type
    refine iff_false_intro fun unknown => ?_
    rw [eq_of_beq unknown] at type
    cases type

/-- An equation for a value has met constants only exactly if all its references to other classes
are to constants. -/
theorem ReportedAt.variableBased_iff (valid : (analyse model).type.isValid)
    (reportedAt : ReportedAt model place number order source equation (.value own) result) :
    equation.variableBased = true ↔ ∀ mention ∈ result.references,
      ¬(analyse model).Binds result.computes mention.2 → (analyse model).IsFixed mention :=
  reportedAt.flag_iff valid Elimination.kindFlag_variableBased _
    fun _ _ _ _ referred bound asked => reportedAt.isFixed_iff valid referred bound asked

/-- An equation that computes no state computes a value. -/
theorem ReportedAt.exists_value (valid : (analyse model).type.isValid)
    (reportedAt : ReportedAt model place number order source equation item result)
    (noState : result.computes.type ≠ .state) : ∃ own, item = .value own := by
  cases item with
  | value own => exact ⟨own, rfl⟩
  | rate own =>
      have type := (isEntry reportedAt.entry).type
      rw [Item.number_rate, (reportedAt.ordered.computesRate valid).2] at type
      exact absurd (Option.some.inj type).symm noState

/-- All references of an equation for a constant are to constants. -/
theorem ReportedAt.isFixed_of_constant (valid : (analyse model).type.isValid)
    (reportedAt : ReportedAt model place number order source equation (.value own) result)
    (constant : result.kind ≠ .algebraic) :
    ∀ mention ∈ result.references, (analyse model).IsFixed mention := by
  rintro ⟨role, declaration⟩ referred
  obtain ⟨record, found, bound, asked⟩ := reportedAt.exists_item valid referred
  -- The flags say nothing about the own class of the equation, what has become of it does.
  by_cases binds : (analyse model).Binds result.computes declaration
  · obtain rfl := (reportedAt.binds_iff_record valid bound).mp binds
    refine (reportedAt.isFixed_iff valid referred bound asked).mp ?_
    rw [reportedAt.kind] at constant
    cases reportedAt.ordered.computesValue valid with
    | trueConstant _ _ left => rw [left]; rfl
    | variableBased _ _ left => rw [left]; rfl
    | algebraic isAlgebraic => exact absurd isAlgebraic constant
  · have kind := reportedAt.kind_eq valid
    have notTrue : equation.trueConstant = false := by
      rw [← Bool.not_eq_true, reportedAt.trueConstant_iff valid]
      exact fun each => binds (each _ referred)
    have based : equation.variableBased = true := by
      by_contra notBased
      exact constant (by rw [kind, notTrue, Bool.eq_false_iff.mpr notBased]; rfl)
    exact (reportedAt.variableBased_iff valid).mp based _ referred binds

/-- The kind of an equation for a value follows from its references. -/
theorem ReportedAt.kindFollows (valid : (analyse model).type.isValid)
    (reportedAt : ReportedAt model place number order source equation (.value own) result) :
    (analyse model).KindFollows result := by
  have kind := reportedAt.kind_eq valid
  have isTrue := reportedAt.trueConstant_iff valid
  have isBased := reportedAt.variableBased_iff valid
  have notTrue : (∃ mention ∈ result.references,
      ¬(analyse model).Binds result.computes mention.2) ↔ ¬equation.trueConstant = true := by
    rw [isTrue]
    push Not
    rfl
  have elsewhere : result.kind = .algebraic → ∃ mention ∈ result.references,
      ¬(analyse model).Binds result.computes mention.2 ∧ (analyse model).Varies mention := by
    intro isAlgebraic
    have notBased : ¬equation.variableBased = true := by
      intro based
      rw [kind] at isAlgebraic
      cases flag : equation.trueConstant <;> simp [flag, based] at isAlgebraic
    rw [isBased] at notBased
    push Not at notBased
    obtain ⟨mention, referred, apart, notFixed⟩ := notBased
    exact ⟨mention, referred, apart, (reportedAt.varies_iff valid referred).mpr notFixed⟩
  refine ⟨?_, ?_, ⟨fun isAlgebraic => ?_, ?_⟩, elsewhere⟩
  · rw [← isTrue, kind]
    cases equation.trueConstant <;> cases equation.variableBased <;> simp
  · rw [notTrue, ← isBased, kind]
    cases equation.trueConstant <;> cases equation.variableBased <;> simp
  · obtain ⟨mention, referred, -, varies⟩ := elsewhere isAlgebraic
    exact ⟨mention, referred, varies⟩
  · rintro ⟨mention, referred, varies⟩
    by_contra constant
    exact (reportedAt.varies_iff valid referred).mp varies
      (reportedAt.isFixed_of_constant valid constant mention referred)

/-! ## Statements for constants -/

/-- Where derivatives have the expected form, an equation for a constant has none, and all that it
mentions are elements of the array of variables. -/
theorem ReportedAt.mentions_of_constant (valid : (analyse model).type.isValid)
    (reportedAt : ReportedAt model place number order source equation (.value own) result)
    (constant : result.kind ≠ .algebraic) (expected : result.expr.DerivesVariables) :
    ∀ mention ∈ result.expr.mentions .plain, mention.1 = .plain ∧
      ∃ place, Code.slot? (analyse model) mention = some (.other place) := by
  have fixed := reportedAt.isFixed_of_constant valid constant
  have none : ∀ first second, ¬Expr.Differentiates first second result.expr := by
    intro first second occurs
    obtain ⟨-, declaration, rfl⟩ := expected first second occurs
    have mentioned : (.differentiated, declaration) ∈ result.expr.mentions .plain :=
      occurs.mem_mentions (.inr List.mem_cons_self)
    obtain ⟨impossible, -⟩ := fixed (.differentiated, declaration)
      (List.mem_filter.mpr ⟨mentioned, rfl⟩)
    cases impossible
  intro mention mentioned
  have plain := Expr.plain_of_undifferentiated none mention mentioned
  have referred : mention ∈ result.references :=
    List.mem_filter.mpr ⟨mentioned, by rw [plain]; rfl⟩
  obtain ⟨-, type, place, binding, isConstant⟩ := fixed mention referred
  refine ⟨plain, place, ?_⟩
  rw [Code.slot?, binding, plain]
  rcases isConstant with rfl | rfl <;> rfl

/-- What is evaluated while constants are computed are the constants based on variables. -/
theorem mem_computedConstants_iff (valid : (analyse model).type.isValid)
    (reported : (analyse model).equations[place]? = some result) :
    place ∈ (Code.Schedule.ofModel (analyse model)).computedConstants ↔
      result.kind = .variableBasedConstant := by
  rw [Code.Schedule.mem_computedConstants_iff (ranked valid) fun _ dependency =>
    not_dependsOn_of_trueConstant valid dependency]
  simp [Code.IsKind, reported]

/-- The procedures that compute constants evaluate the equations for constants. -/
theorem mem_constants_iff (valid : (analyse model).type.isValid) :
    .equation result ∈
      Code.Program.equations (analyse model) (Code.Schedule.ofModel (analyse model)).initialise ++
        Code.Program.equations (analyse model)
          (Code.Schedule.ofModel (analyse model)).computedConstants ↔
    result ∈ (analyse model).equations ∧
      (result.kind = .trueConstant ∨ result.kind = .variableBasedConstant) := by
  rw [List.mem_append]
  constructor
  · have isEquation {places : Code.Places}
        (listed : .equation result ∈ Code.Program.equations (analyse model) places) :
        ∃ place ∈ places, (analyse model).equations[place]? = some result := by
      obtain ⟨place, evaluated, image⟩ := List.mem_filterMap.mp listed
      obtain ⟨_, found, same⟩ := Option.map_eq_some_iff.mp image
      cases same
      exact ⟨place, evaluated, found⟩
    rintro (listed | listed) <;> obtain ⟨place, evaluated, found⟩ := isEquation listed
    · exact ⟨List.mem_of_getElem? found, .inl ((mem_initialise_iff valid found).mp evaluated)⟩
    · exact ⟨List.mem_of_getElem? found,
        .inr ((mem_computedConstants_iff valid found).mp evaluated)⟩
  · rintro ⟨isEquation, isTrue | isBased⟩ <;>
      obtain ⟨place, found⟩ := List.mem_iff_getElem?.mp isEquation
    · exact .inl (Code.Program.mem_equations found ((mem_initialise_iff valid found).mpr isTrue))
    · exact .inr (Code.Program.mem_equations found
        ((mem_computedConstants_iff valid found).mpr isBased))

/-- The kind of an equation for a value is what its references imply: it is that of a true constant
without references to other classes, that of a constant based on variables with such references to
constants only, and algebraic with one to the variable of integration, a state, a rate or an
algebraic variable. Where derivatives have the expected form, what the procedures for constants take
from equations mentions elements of the array of variables only, and its text depends on no other
names. -/
theorem kind_follows_references (model : Model) (valid : (analyse model).type.isValid) :
    (∀ result ∈ (analyse model).equations, result.computes.type ≠ .state →
      (analyse model).KindFollows result) ∧
    ∀ result, .equation result ∈
        Code.Program.equations (analyse model) (Code.Schedule.ofModel (analyse model)).initialise ++
          Code.Program.equations (analyse model)
            (Code.Schedule.ofModel (analyse model)).computedConstants →
      result.expr.DerivesVariables →
        (∀ mention ∈ result.expr.mentions .plain,
          ∃ place, Code.slot? (analyse model) mention = some (.other place)) ∧
        ∀ (profile : Profile) (names : Bool → Nat → String),
          (∀ declaration place,
            Code.slot? (analyse model) (.plain, declaration) = some (.other place) →
              names false declaration =
                profile.referenceText (analyse model) false declaration) →
          (Statement.equation result).text (analyse model) profile =
            profile.line (profile.code names false result.expr) := by
  refine ⟨fun result isEquation noState => ?_, fun result listed expected => ?_⟩
  · obtain ⟨_, _, _, _, _, _, reportedAt⟩ := exists_reportedAt_of_mem_equations valid isEquation
    obtain ⟨own, rfl⟩ := reportedAt.exists_value valid noState
    exact reportedAt.kindFollows valid
  · obtain ⟨isEquation, constant⟩ := (mem_constants_iff valid).mp listed
    obtain ⟨_, _, _, _, _, _, reportedAt⟩ := exists_reportedAt_of_mem_equations valid isEquation
    rcases reportedAt.kind_cases valid with ⟨own, rfl, -⟩ | ⟨own, -, isRate, -⟩
    · have notAlgebraic : result.kind ≠ .algebraic := by
        rcases constant with kind | kind <;> rw [kind] <;> decide
      have mentions := reportedAt.mentions_of_constant valid notAlgebraic expected
      refine ⟨fun mention mentioned => (mentions mention mentioned).2, fun profile names same => ?_⟩
      refine congrArg profile.line (Code.code_congr profile result.expr .plain ?_)
      rintro ⟨role, declaration⟩ mentioned
      obtain ⟨rfl, place, kept⟩ := mentions _ mentioned
      exact (same declaration place kept).symm
    · rcases constant with kind | kind <;> cases kind.symm.trans isRate

theorem type_leftover_entry
    (entry : (layout leftover).byRecord.lookup record = some found) :
    found.type = .computedConstant := by
  have type := (isEntry entry).type
  rw [registry_leftover] at type
  match record with
  | 0 | 1 => exact (Option.some.inj type).symm
  | record + 2 => cases type

/-- In the model `x = y`, `x = 3` both variables are constants, whichever equation comes first. The
statements for them name the array of variables only. -/
theorem leftover_names_variables_only : (analyse leftover).type = .algebraic ∧
    ∀ result ∈ (analyse leftover).equations,
      (result.kind = .trueConstant ∨ result.kind = .variableBasedConstant) ∧
        ∀ mention ∈ result.expr.mentions .plain,
          ∃ place, Code.slot? (analyse leftover) mention = some (.other place) := by
  obtain ⟨kinds, statements⟩ := kind_follows_references leftover valid_leftover
  refine ⟨type_leftover, fun result isEquation => ?_⟩
  obtain ⟨_, number, _, source, _, _, reportedAt⟩ :=
    exists_reportedAt_of_mem_equations valid_leftover isEquation
  have ⟨plain, expected⟩ : (∀ mention ∈ source.expr.mentions .plain, mention.1 = .plain) ∧
      source.expr.DerivesVariables := by
    have foundSource := reportedAt.ordered.foundSource
    have listed := List.mem_of_getElem? reportedAt.listed
    rw [reported_leftover] at listed
    rw [built, gathered_leftover] at foundSource
    rcases List.mem_pair.mp listed with rfl | rfl <;> obtain rfl := Option.some.inj foundSource <;>
      refine ⟨by decide, fun first second occurs => ?_⟩ <;>
      rcases occurs with _ | inside | inside <;> cases inside
  have constant : result.kind = .trueConstant ∨ result.kind = .variableBasedConstant := by
    have follows := kinds result isEquation (by simp [type_leftover_entry reportedAt.entry])
    have fixed : ∀ mention ∈ result.references, (analyse leftover).IsFixed mention := by
      rintro ⟨role, declaration⟩ referred
      obtain ⟨record, found, bound, -⟩ := reportedAt.exists_item valid_leftover referred
      exact ⟨plain _ (reportedAt.mem_references.mp referred).1, found.type, found.place,
        bound.binding, .inr (type_leftover_entry bound.entry)⟩
    by_cases alone : ∀ mention ∈ result.references,
        (analyse leftover).Binds result.computes mention.2
    · exact .inl (follows.trueConstant.mpr alone)
    · push Not at alone
      exact .inr (follows.variableBased.mpr
        ⟨alone, fun mention referred _ => fixed mention referred⟩)
  have listed := (mem_constants_iff valid_leftover).mpr ⟨isEquation, constant⟩
  exact ⟨constant, (statements result listed (reportedAt.expr ▸ expected.rescale)).1⟩

end Stage

end Analysis

end ComponentModel
